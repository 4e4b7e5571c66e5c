import JobMatrix.Run.Result
import JobMatrix.Text.Utf8

/-! # Started programs

A started program writes bytes and comes to an end: it exits, or it cannot be
started at all.  Its first end is the one that counts.
-/

namespace JobMatrix.Shell

/-- What a started program does. -/
inductive Signal
  | wrote (bytes : List Nat)
  | broke (message : String)
  | exited (code : Option Number)
  deriving Repr, DecidableEq

/-- How the programs behave that run a script. -/
structure Program where
  script : Option String
  delay : Nat
  signals : List Signal
  deriving Repr, DecidableEq

namespace Program

/-- A program that exits well after one unit of time. -/
def idle : Program := ⟨none, 1, [.exited (some 0)]⟩

def pick (programs : List Program) (script : String) : Program :=
  (programs.find? fun p => p.script.all (· == script)).getD idle

def codeText : Option Number → String
  | none => "null"
  | some code => code.toText

def exitResult (code : Option Number) : ActionResult :=
  if code.any Number.isZero then ⟨true, none⟩
  else ⟨false, some ("process exited with code " ++ codeText code)⟩

/-- The result by the first end among signals; a program without an end counts
    as killed. -/
def firstEnd : List Signal → ActionResult
  | [] => exitResult none
  | .wrote _ :: rest => firstEnd rest
  | .broke message :: _ => ⟨false, some message⟩
  | .exited code :: _ => exitResult code

def result (p : Program) : ActionResult :=
  firstEnd p.signals

/-- The chunks of text that a program writes; each is read by itself. -/
def chunks (p : Program) : List String :=
  p.signals.filterMap fun
    | .wrote bytes => some (Text.ofBytes bytes)
    | _ => none

end Program

end JobMatrix.Shell
