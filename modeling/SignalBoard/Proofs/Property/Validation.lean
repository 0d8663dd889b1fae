import Mathlib.Control.Monad.Basic
import Mathlib.Data.List.Forall2
import SignalBoard.Property.Map

/-!
This module shows what validation does: `PropertyMap.validate_eq_ok_iff` says that a batch of edits passes
exactly if every entry does, and `PropertyMap.validate_eq_error_iff` that its first entry that is refused
decides the error.
-/

namespace SignalBoard

namespace PropertyMap

/--
Why the edit of one property is refused: there is no such property, or its type has no such literal.
-/
inductive Refuses (props : PropertyMap) : String × String → PropertyError → Prop where
  | unknown {name literal : String} (hname : props.lookup name = none)
      : Refuses props (name, literal) (.unknown name)
  | invalid {name literal : String} {prop : Property} (hname : props.lookup name = some prop)
      (hliteral : prop.kind.read? literal = none)
      : Refuses props (name, literal) (.invalid name literal prop.kind)

theorem validateEntry_eq_error_iff {props : PropertyMap} {entry : String × String}
    {error : PropertyError} : props.validateEntry entry = .error error ↔ props.Refuses entry error := by
  obtain ⟨name, literal⟩ := entry
  constructor
  · intro h
    unfold validateEntry at h
    split at h
    · rename_i hname
      cases h
      exact .unknown hname
    · rename_i prop hname
      split at h
      · rename_i hliteral
        cases h
        exact .invalid hname hliteral
      · cases h
  · intro h
    cases h with
    | unknown hname => simp only [validateEntry, hname]
    | invalid hname hliteral => simp only [validateEntry, hname, hliteral]

theorem validateEntry_eq_ok_iff {props : PropertyMap} {entry : String × String}
    {result : String × PropertyValue}
    : props.validateEntry entry = .ok result ↔
        ∃ prop, props.lookup entry.1 = some prop ∧ result.1 = entry.1 ∧
          prop.kind.read? entry.2 = some result.2 := by
  obtain ⟨name, literal⟩ := entry
  obtain ⟨written, value⟩ := result
  constructor
  · intro h
    unfold validateEntry at h
    split at h
    · cases h
    · rename_i prop hname
      split at h
      · cases h
      · rename_i hvalue
        cases h
        exact ⟨prop, hname, rfl, hvalue⟩
  · rintro ⟨prop, hname, rfl, hvalue⟩
    simp only [validateEntry, hname, hvalue]

theorem validate_nil (props : PropertyMap) : props.validate [] = .ok [] := rfl

theorem validate_cons (props : PropertyMap) (entry : String × String) (changes : Changes)
    : props.validate (entry :: changes)
        =
      match props.validateEntry entry, props.validate changes with
      | .error error, _ => .error error
      | .ok _, .error error => .error error
      | .ok result, .ok results => .ok (result :: results) := by
  rw [validate, List.mapM_cons, validate]
  cases props.validateEntry entry with
  | error error => rfl
  | ok result => cases List.mapM props.validateEntry changes <;> rfl

theorem validate_eq_ok_iff {props : PropertyMap} {changes : Changes}
    {results : List (String × PropertyValue)}
    : props.validate changes = .ok results ↔
        List.Forall₂ (fun entry result => props.validateEntry entry = .ok result) changes results := by
  induction changes generalizing results with
  | nil => simp [validate_nil, eq_comm]
  | cons entry changes ih =>
    rw [validate_cons, List.forall₂_cons_left_iff]
    cases props.validateEntry entry with
    | error error => simp
    | ok result =>
      cases hrest : props.validate changes with
      | error error => simp [← ih, hrest]
      | ok rest =>
        simp only [← ih, hrest, Except.ok.injEq]
        simp [eq_comm]

theorem exists_entry_of_validate {props : PropertyMap} {changes : Changes}
    {results : List (String × PropertyValue)} (h : props.validate changes = .ok results)
    {result : String × PropertyValue} (hresult : result ∈ results)
    : ∃ entry ∈ changes, props.validateEntry entry = .ok result := by
  rw [validate_eq_ok_iff] at h
  induction h with
  | nil => cases hresult
  | cons hentry _ ih =>
    rcases List.mem_cons.mp hresult with rfl | hrest
    · exact ⟨_, List.mem_cons_self, hentry⟩
    · obtain ⟨entry, hmem, hvalidated⟩ := ih hrest
      exact ⟨entry, List.mem_cons_of_mem _ hmem, hvalidated⟩

/--
The first entry of the batch that is refused, with the reason.
-/
def RefusesFirst (props : PropertyMap) (changes : Changes) (error : PropertyError) : Prop :=
  ∃ front entry rest, changes = front ++ entry :: rest ∧
    (∀ earlier ∈ front, ∀ reason, ¬ props.Refuses earlier reason) ∧ props.Refuses entry error

theorem refusesFirst_cons_iff {props : PropertyMap} {entry : String × String} {changes : Changes}
    {error : PropertyError}
    : props.RefusesFirst (entry :: changes) error ↔
        props.Refuses entry error ∨
          (∀ reason, ¬ props.Refuses entry reason) ∧ props.RefusesFirst changes error := by
  constructor
  · rintro ⟨front, refused, rest, hsplit, hfront, hrefused⟩
    cases front with
    | nil =>
      cases hsplit
      exact .inl hrefused
    | cons first front =>
      cases hsplit
      rw [List.forall_mem_cons] at hfront
      exact .inr ⟨hfront.1, front, refused, rest, rfl, hfront.2, hrefused⟩
  · rintro (hrefused | ⟨hentry, front, refused, rest, rfl, hfront, hrefused⟩)
    · exact ⟨[], entry, changes, rfl, by simp, hrefused⟩
    · exact ⟨entry :: front, refused, rest, rfl, List.forall_mem_cons.mpr ⟨hentry, hfront⟩, hrefused⟩

theorem validate_eq_error_iff {props : PropertyMap} {changes : Changes} {error : PropertyError}
    : props.validate changes = .error error ↔ props.RefusesFirst changes error := by
  induction changes with
  | nil => simp [validate_nil, RefusesFirst]
  | cons entry changes ih =>
    rw [validate_cons, refusesFirst_cons_iff]
    simp only [← validateEntry_eq_error_iff, ← ih]
    cases props.validateEntry entry with
    | error error => simp
    | ok result => cases props.validate changes <;> simp

/--
A batch of edits is refused exactly if one of its entries is.
-/
theorem validate_refused_iff {props : PropertyMap} {changes : Changes}
    : (∃ error, props.validate changes = .error error) ↔
        ∃ entry ∈ changes, ∃ error, props.Refuses entry error := by
  induction changes with
  | nil => simp [validate_nil]
  | cons entry changes ih =>
    rw [validate_cons, List.exists_mem_cons_iff, ← ih]
    simp only [← validateEntry_eq_error_iff]
    cases props.validateEntry entry with
    | error error => simp
    | ok result => cases props.validate changes <;> simp

end PropertyMap

end SignalBoard
