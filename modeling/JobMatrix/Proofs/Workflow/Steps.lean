import Mathlib.Data.List.Forall2
import JobMatrix.Proofs.Data.Keyed
import JobMatrix.Workflow.StepReader

/-! # What a step declares

A step that is read from data does one thing, and is limited to platforms that
are known.  Its inputs and its environment are flat maps of scalars.
-/

namespace JobMatrix.Workflow

/-! ## Fields -/

theorem optionalText_spec {value : Data} {path : String} {text : Option String}
    (h : optionalText value path = .ok text) :
    (value.isNothing = true ∧ text = none) ∨ ∃ s, value = .text s ∧ text = some s := by
  unfold optionalText at h
  split at h
  · cases h
    exact .inl ⟨rfl, rfl⟩
  · cases h
    exact .inl ⟨rfl, rfl⟩
  · next s =>
      cases h
      exact .inr ⟨s, rfl, rfl⟩
  · cases h

/-- A dictionary holds the texts of a flat map of scalars, all but that of the
    key of the prototype; where there is no map, it is empty. -/
structure Texts (value : Data) (d : Dict String) : Prop where
  flat : value.isNothing = true ∨ ∃ entries, value = .map entries
  named : ∀ key entry, value.get? key = some entry →
    ∃ text, scalarText? entry = some text ∧ (key ≠ Dict.prototypeKey → d.get? key = some text)
  unnamed : ∀ key, value.get? key = none → d.get? key = none
  prototype : d.get? Dict.prototypeKey = none

def ReadsAs (entry : String × Data) (read : String × String) : Prop :=
  read.1 = entry.1 ∧ scalarText? entry.2 = some read.2

theorem readsAs_of_readTexts {path : String} {entries : List (String × Data)}
    {texts : List (String × String)} (h : readTexts path entries = .ok texts) :
    List.Forall₂ ReadsAs entries texts := by
  induction entries generalizing texts with
  | nil =>
      cases h
      exact .nil
  | cons entry rest ih =>
      unfold readTexts at h
      split at h
      · cases h
      · next text found =>
          obtain ⟨others, more, h⟩ := exists_of_bind_eq_ok h
          cases h
          exact .cons ⟨rfl, found⟩ (ih more)

section ReadsAs

variable {entries : List (String × Data)} {texts : List (String × String)}
  (h : List.Forall₂ ReadsAs entries texts)
include h

theorem keys_of_readsAs : texts.map Prod.fst = entries.map Prod.fst :=
  map_eq_of_forall₂ h fun _ _ read => read.1

theorem get?_of_readsAs (key : String) :
    Entries.get? key texts = (Entries.get? key entries).bind scalarText? := by
  induction h with
  | nil => rfl
  | @cons entry text _ _ first _ ih =>
      rw [Entries.get?, Entries.get?, first.1]
      split
      · exact first.2.symm
      · exact ih

theorem scalarText?_of_readsAs {key : String} {entry : Data}
    (found : Entries.get? key entries = some entry) : ∃ text, scalarText? entry = some text := by
  obtain ⟨read, -, readsAs⟩ := exists_of_forall₂ h.flip (Entries.mem_of_get? found)
  exact ⟨read.2, readsAs.2⟩

end ReadsAs

theorem texts_of_textDict {value : Data} {path : String} {d : Dict String} (keyed : value.Keyed)
    (h : textDict value path = .ok d) : Texts value d := by
  unfold textDict at h
  split at h
  · cases h
    exact ⟨.inl rfl, nofun, fun _ _ => rfl, rfl⟩
  · cases h
    exact ⟨.inl rfl, nofun, fun _ _ => rfl, rfl⟩
  · next entries =>
      obtain ⟨texts, read, h⟩ := exists_of_bind_eq_ok h
      cases h
      have readsAs := readsAs_of_readTexts read
      have nodup : (texts.map Prod.fst).Nodup := by
        rw [keys_of_readsAs readsAs]
        exact keyed.nodup
      have lookup (key : String) : (Dict.empty.assignAll texts).get? key =
          if key = Dict.prototypeKey then none else (Entries.get? key entries).bind scalarText? := by
        rw [Dict.get?_assignAll nodup, get?_of_readsAs readsAs]
        simp
      refine ⟨.inr ⟨entries, rfl⟩, ?named, ?unnamed, ?prototype⟩
      case named =>
        intro key entry found
        obtain ⟨text, scalar⟩ := scalarText?_of_readsAs readsAs found
        refine ⟨text, scalar, fun plain => ?_⟩
        rw [lookup, if_neg plain, show Entries.get? key entries = some entry from found]
        exact scalar
      case unnamed =>
        intro key missing
        rw [lookup, show Entries.get? key entries = none from missing]
        exact ite_self none
      case prototype =>
        rw [lookup, if_pos rfl]
  · cases h

/-! ## Platforms -/

def NamesPlatform (item : Data) (p : Platform) : Prop :=
  ∃ text, item = .text text ∧ Text.toLower text = p.name

/-- The platforms that a step is limited to: all of them where nothing is said,
    else the one that is named or those of a list. -/
inductive LimitedTo : Data → Option (List Platform) → Prop
  | nothing {value : Data} (isNothing : value.isNothing = true) : LimitedTo value none
  | one {value : Data} {p : Platform} (named : NamesPlatform value p) : LimitedTo value (some [p])
  | list {items : List Data} {ps : List Platform} (named : List.Forall₂ NamesPlatform items ps) :
      LimitedTo (.list items) (some ps)

theorem named_of_readPlatformItems {path : String} {items : List Data} {ps : List Platform}
    (h : readPlatformItems path items = .ok ps) : List.Forall₂ NamesPlatform items ps := by
  induction items generalizing ps with
  | nil =>
      cases h
      exact .nil
  | cons item rest ih =>
      unfold readPlatformItems at h
      dsimp only at h
      split at h
      · cases h
      · next p found =>
          obtain ⟨others, more, h⟩ := exists_of_bind_eq_ok h
          cases h
          rw [Platform.ofName?_eq_some] at found
          refine .cons ?_ (ih more)
          split at found
          · next text => exact ⟨text, rfl, found⟩
          · cases p <;> simp [Platform.name] at found

theorem limitedTo_of_readPlatforms {value : Data} {path : String} {ps : Option (List Platform)}
    (h : readPlatforms value path = .ok ps) : LimitedTo value ps := by
  unfold readPlatforms at h
  split at h
  · cases h
    exact .nothing rfl
  · cases h
    exact .nothing rfl
  · obtain ⟨listed, read, h⟩ := exists_of_bind_eq_ok h
    cases h
    exact .list (named_of_readPlatformItems read)
  · obtain ⟨listed, read, h⟩ := exists_of_bind_eq_ok h
    cases h
    cases named_of_readPlatformItems read with
    | cons named none =>
        cases none
        exact .one named

/-! ## Steps -/

/-- What a step does: it runs a script, or it uses an action by a reference
    without blanks around it. -/
inductive Acts (item : Data) (step : Step) : Prop
  | runs {script : String} (declared : item.getD "run" = .text script)
      (run : step.run = some script) (uses : step.uses = none)
  | uses {written reference : String} (declared : item.getD "uses" = .text written)
      (trimmed : reference = Text.trim written) (plain : Text.trim reference = reference)
      (accepted : (ActionReference.parse? reference).isSome) (run : step.run = none)
      (uses : step.uses = some reference)

/-- A step is what an item of a list of steps declares. -/
structure StepOf (index : Nat) (item : Data) (step : DeclaredStep) : Prop where
  acts : Acts item step.toStep
  id : item.getD "id" = .text step.id ∨
    (item.getD "id").isNothing = true ∧ step.id = generatedId index
  platforms : LimitedTo (item.getD "platform") step.platforms
  inputs : Texts (item.getD "with") step.inputs
  env : Texts (item.getD "env") step.env

theorem declares_id {value : Data} {path : String} {id : Option String} (index : Nat)
    (h : optionalText value path = .ok id) : value = .text (id.getD (generatedId index)) ∨
      value.isNothing = true ∧ id.getD (generatedId index) = generatedId index := by
  rcases optionalText_spec h with ⟨nothing, rfl⟩ | ⟨id, rfl, rfl⟩
  · exact .inr ⟨nothing, rfl⟩
  · exact .inl rfl

theorem isStep_eq_false {item : Data} (noRun : (item.getD "run").isNothing = true)
    (noUses : (item.getD "uses").isNothing = true) : isStep item = false := by
  unfold isStep
  split
  · next isRun =>
      rw [isRun] at noRun
      cases noRun
  · next isUses _ =>
      rw [isUses] at noUses
      cases noUses
  · rfl

theorem stepOf_of_readStep {item : Data} {index : Nat} {path : String} {step : DeclaredStep}
    (keyed : item.Keyed) (h : readStep item index path = .ok step) : StepOf index item step := by
  unfold readStep at h
  split at h
  · cases h
  next shaped =>
  obtain ⟨run, readRun, h⟩ := exists_of_bind_eq_ok h
  obtain ⟨written, readUses, h⟩ := exists_of_bind_eq_ok h
  dsimp only at h readRun readUses
  split at h
  · cases h
  next single =>
  -- One of the two is there by the shape of the item, and not both.
  have acts : (∃ script, item.getD "run" = .text script ∧ run = some script ∧ written = none) ∨
      ∃ reference, item.getD "uses" = .text reference ∧ run = none ∧ written = some reference := by
    rcases optionalText_spec readRun with ⟨noRun, rfl⟩ | ⟨script, isRun, rfl⟩ <;>
      rcases optionalText_spec readUses with ⟨noUses, rfl⟩ | ⟨reference, isUses, rfl⟩
    · exact absurd shaped (by simp [isStep_eq_false noRun noUses])
    · exact .inr ⟨reference, isUses, rfl, rfl⟩
    · exact .inl ⟨script, isRun, rfl, rfl⟩
    · exact absurd rfl single
  rcases acts with ⟨script, declared, rfl, rfl⟩ | ⟨reference, declared, rfl, rfl⟩
  case' inr =>
    dsimp only [Option.map_some] at h
    split at h
    · cases h
    rename_i accepted
    rw [Bool.not_eq_true, Option.isNone_eq_false_iff] at accepted
  all_goals
    obtain ⟨tolerance, -, h⟩ := exists_of_bind_eq_ok h
    obtain ⟨name, -, h⟩ := exists_of_bind_eq_ok h
    obtain ⟨id, readId, h⟩ := exists_of_bind_eq_ok h
    obtain ⟨platforms, readPlatforms, h⟩ := exists_of_bind_eq_ok h
    obtain ⟨inputs, readInputs, h⟩ := exists_of_bind_eq_ok h
    obtain ⟨env, readEnv, h⟩ := exists_of_bind_eq_ok h
    obtain ⟨condition, -, h⟩ := exists_of_bind_eq_ok h
    obtain ⟨shell, -, h⟩ := exists_of_bind_eq_ok h
    obtain ⟨workingDirectory, -, h⟩ := exists_of_bind_eq_ok h
    cases h
    refine ⟨?_, declares_id index readId, limitedTo_of_readPlatforms readPlatforms,
      texts_of_textDict (keyed.getD "with") readInputs,
      texts_of_textDict (keyed.getD "env") readEnv⟩
  · exact .uses declared rfl (Text.trim_trim reference) accepted rfl rfl
  · exact .runs declared rfl rfl

end JobMatrix.Workflow
