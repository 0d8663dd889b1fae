import SignalBoard.Proofs.Text.Run
import SignalBoard.RepeatExpression

/-!
This module contains the groups of a repeat expression, each a number with the keys behind it. Every
text is divided into groups in exactly one way: `Grouping.exists_text_eq`, `Grouping.eq_of_text_eq`.
-/

namespace SignalBoard

/--
What a list of keys stands for; keys that are not bound stand for nothing.
-/
def Keytable.actions (t : Keytable) (keys : List Char) : List Action :=
  keys.filterMap t.resolve?

theorem Keytable.resolve?_eq_none_iff {t : Keytable} {key : Char}
    : t.resolve? key = none ↔ t.contains key = false := by
  simp [contains, resolve?]

namespace RepeatExpression

/--
A number, and the keys that it repeats.
-/
@[ext]
structure Group where
  number : List Char
  keys : List Char
  isNumeral : Numeral.isNumeral number = true
  noDigit : ∀ c ∈ keys, c.isDigit = false

namespace Group

def text (g : Group) : List Char :=
  g.number ++ g.keys

/--
The actions of the keys, as often as the number says but not more often than `limit`.
-/
def actions (keytable : Keytable) (limit : Nat) (g : Group) : List Action :=
  (List.replicate (min (Numeral.value g.number) limit) (keytable.actions g.keys)).flatten

theorem number_isDigit (g : Group) : ∀ c ∈ g.number, c.isDigit = true := by
  have := g.isNumeral
  simp only [Numeral.isNumeral, Bool.and_eq_true, List.all_eq_true] at this
  exact this.2

theorem number_ne_nil (g : Group) : g.number ≠ [] := by
  have := g.isNumeral
  intro h
  simp [h, Numeral.isNumeral] at this

theorem flatMap_text_ne_nil (g : Group) (groups : List Group)
    : (g :: groups).flatMap text ≠ [] := by
  intro h
  simp only [List.flatMap_cons, text, List.append_eq_nil_iff] at h
  exact g.number_ne_nil h.1.1

theorem isDigit_of_mem_head? {groups : List Group} {c : Char}
    (h : c ∈ (groups.flatMap text).head?) : c.isDigit = true := by
  cases groups with
  | nil => cases h
  | cons g groups =>
    cases hnumber : g.number with
    | nil => exact absurd hnumber g.number_ne_nil
    | cons d number =>
      simp only [List.flatMap_cons, text, hnumber, List.cons_append, List.head?_cons,
        Option.mem_some_iff] at h
      subst h
      apply g.number_isDigit
      rw [hnumber]
      apply List.mem_cons_self

/--
No digit stands right behind the number of a group, be it the last one or not.
-/
theorem isDigit_eq_false_of_mem_head? {g : Group} {groups : List Group}
    (hg : groups = [] ∨ g.keys ≠ []) {c : Char}
    (h : c ∈ (g.keys ++ groups.flatMap text).head?) : c.isDigit = false := by
  cases hkeys : g.keys with
  | nil =>
    rw [hkeys] at hg
    simp only [ne_eq, not_true_eq_false, or_false] at hg
    simp [hkeys, hg] at h
  | cons key keys =>
    simp only [hkeys, List.cons_append, List.head?_cons, Option.mem_some_iff] at h
    apply g.noDigit
    simp [hkeys, h]

end Group

/--
The groups of an expression behind the keys in front of its first number. Only behind the last number
there may be no keys, as two numbers that touch are one.
-/
@[ext]
structure Grouping where
  lead : List Char
  groups : List Group
  noDigit : ∀ c ∈ lead, c.isDigit = false
  apart : ∀ g ∈ groups.dropLast, g.keys ≠ []

theorem apart_cons_iff {g : Group} {groups : List Group}
    : (∀ h ∈ (g :: groups).dropLast, h.keys ≠ []) ↔
        (groups = [] ∨ g.keys ≠ []) ∧ ∀ h ∈ groups.dropLast, h.keys ≠ [] := by
  cases groups with
  | nil => simp
  | cons next groups => simp

namespace Grouping

def text (e : Grouping) : List Char :=
  e.lead ++ e.groups.flatMap Group.text

/--
What the expression amounts to.
-/
def actions (keytable : Keytable) (limit : Nat) (e : Grouping) : List Action :=
  keytable.actions e.lead ++ e.groups.flatMap (Group.actions keytable limit)

theorem filter_text (e : Grouping)
    : e.text.filter (!·.isDigit) = e.lead ++ e.groups.flatMap Group.keys := by
  have hlead : e.lead.filter (!·.isDigit) = e.lead := by
    rw [List.filter_eq_self]
    simpa using e.noDigit
  have hgroup : ∀ g : Group, g.text.filter (!·.isDigit) = g.keys := by
    intro g
    rw [Group.text, List.filter_append, List.filter_eq_nil_iff.mpr, List.filter_eq_self.mpr]
    · rfl
    · simpa using g.noDigit
    · simpa using g.number_isDigit
  simp only [text, List.filter_append, hlead, List.filter_flatMap, hgroup]

theorem exists_text_eq (cs : List Char) : ∃ e : Grouping, e.text = cs := by
  induction cs with
  | nil => exact ⟨⟨[], [], by simp, by simp⟩, rfl⟩
  | cons c cs ih =>
    obtain ⟨⟨lead, groups, hlead, hgroups⟩, rfl⟩ := ih
    cases hc : c.isDigit with
    | false =>
      refine ⟨⟨c :: lead, groups, ?_, hgroups⟩, rfl⟩
      simpa [hc] using hlead
    | true =>
      -- the digit begins a number of its own, unless it stands right in front of one
      by_cases hnew : groups = [] ∨ lead ≠ []
      · refine ⟨⟨[], ⟨[c], lead, by simp [Numeral.isNumeral, hc], hlead⟩ :: groups, by simp, ?_⟩, ?_⟩
        · rw [apart_cons_iff]
          exact ⟨hnew, hgroups⟩
        · simp [text, Group.text]
      · simp only [not_or, ne_eq, Decidable.not_not] at hnew
        obtain ⟨hsome, rfl⟩ := hnew
        cases groups with
        | nil => exact absurd rfl hsome
        | cons g groups =>
          have hnumber : Numeral.isNumeral (c :: g.number) = true := by
            simpa [Numeral.isNumeral, hc] using g.number_isDigit
          refine ⟨⟨[], ⟨c :: g.number, g.keys, hnumber, g.noDigit⟩ :: groups, by simp, ?_⟩, ?_⟩
          · rw [apart_cons_iff] at hgroups ⊢
            exact hgroups
          · simp [text, Group.text]

theorem groups_inj {groups groups' : List Group} (hgroups : ∀ g ∈ groups.dropLast, g.keys ≠ [])
    (hgroups' : ∀ g ∈ groups'.dropLast, g.keys ≠ [])
    (h : groups.flatMap Group.text = groups'.flatMap Group.text) : groups = groups' := by
  induction groups generalizing groups' with
  | nil =>
    cases groups' with
    | nil => rfl
    | cons g groups' => exact absurd h.symm (Group.flatMap_text_ne_nil g groups')
  | cons g groups ih =>
    cases groups' with
    | nil => exact absurd h (Group.flatMap_text_ne_nil g groups)
    | cons g' groups' =>
      rw [apart_cons_iff] at hgroups hgroups'
      simp only [List.flatMap_cons, Group.text, List.append_assoc] at h
      -- the number ends where the digits do, and the keys end where the next digit stands
      obtain ⟨hnumber, hrest⟩ := Text.append_inj_of_runs g.number_isDigit g'.number_isDigit
        (fun _ => Group.isDigit_eq_false_of_mem_head? hgroups.1)
        (fun _ => Group.isDigit_eq_false_of_mem_head? hgroups'.1) h
      obtain ⟨hkeys, htail⟩ := Text.append_inj_of_runs (p := fun c => !c.isDigit)
        (by simpa using g.noDigit) (by simpa using g'.noDigit)
        (by simpa using fun c => Group.isDigit_of_mem_head?)
        (by simpa using fun c => Group.isDigit_of_mem_head?) hrest
      rw [Group.ext hnumber hkeys, ih hgroups.2 hgroups'.2 htail]

theorem eq_of_text_eq {e e' : Grouping} (h : e.text = e'.text) : e = e' := by
  obtain ⟨lead, groups, hlead, hgroups⟩ := e
  obtain ⟨lead', groups', hlead', hgroups'⟩ := e'
  obtain ⟨rfl, htail⟩ := Text.append_inj_of_runs (p := fun c => !c.isDigit)
    (by simpa using hlead) (by simpa using hlead')
    (by simpa using fun c => Group.isDigit_of_mem_head?)
    (by simpa using fun c => Group.isDigit_of_mem_head?) h
  apply Grouping.ext
  · rfl
  · exact groups_inj hgroups hgroups' htail

end Grouping

end RepeatExpression

end SignalBoard
