import Mathlib.Logic.ExistsUnique
import SignalBoard.Proofs.RepeatExpression.Grouping

/-!
This module shows what the reader makes of an expression: every group is repeated as often as its
number says, unless some character is not bound. The main result is `RepeatExpression.read_eq_actions`.
-/

namespace SignalBoard

namespace RepeatExpression

/--
The first character that is neither a digit nor a bound key.
-/
def firstUnbound? (keytable : Keytable) (cs : List Char) : Option Char :=
  cs.find? fun c => !c.isDigit && !keytable.contains c

theorem firstUnbound?_cons (keytable : Keytable) (c : Char) (cs : List Char)
    : firstUnbound? keytable (c :: cs)
        =
      if c.isDigit || keytable.contains c then firstUnbound? keytable cs else some c := by
  unfold firstUnbound?
  rw [List.find?_cons]
  cases c.isDigit <;> cases keytable.contains c <;> rfl

theorem mem_of_firstUnbound? {keytable : Keytable} {cs : List Char} {c : Char}
    (h : firstUnbound? keytable cs = some c)
    : c ∈ cs ∧ c.isDigit = false ∧ keytable.contains c = false := by
  refine ⟨List.mem_of_find?_eq_some h, ?_⟩
  simpa using List.find?_some h

namespace State

variable {keytable : Keytable} {limit : Nat}

theorem feed_digit {c : Char} (hc : c.isDigit = true) (s : State)
    : s.feed keytable limit c
        =
      let s := if s.inNumber then s else { s.flush with count := 0, inNumber := true }
      .ok { s with count := min (Numeral.appendSaturating maxCount s.count c) limit } := by
  rw [feed, if_pos hc]

theorem feed_unbound {c : Char} (hc : c.isDigit = false) (hunbound : keytable.contains c = false)
    (s : State) : s.feed keytable limit c = .error (.unknownCommand c) := by
  rw [feed, if_neg (by simp [hc]), Keytable.resolve?_eq_none_iff.mpr hunbound]

theorem feed_bound {c : Char} {action : Action} (hc : c.isDigit = false)
    (hbound : keytable.resolve? c = some action) (s : State)
    : s.feed keytable limit c
        =
      .ok { s with staged := s.staged ++ [action], inNumber := false } := by
  rw [feed, if_neg (by simp [hc]), hbound]

/--
Read characters from left to right.
-/
def feedAll (keytable : Keytable) (limit : Nat) (s : State) (cs : List Char)
    : Except CommandError State :=
  cs.foldlM (feed keytable limit) s

@[simp]
theorem feedAll_nil (s : State) : s.feedAll keytable limit [] = .ok s := rfl

theorem feedAll_cons_of_ok {s s' : State} {c : Char} (h : s.feed keytable limit c = .ok s')
    (cs : List Char) : s.feedAll keytable limit (c :: cs) = s'.feedAll keytable limit cs := by
  rw [feedAll, List.foldlM_cons, h]
  rfl

theorem feedAll_cons_of_error {s : State} {c : Char} {error : CommandError}
    (h : s.feed keytable limit c = .error error) (cs : List Char)
    : s.feedAll keytable limit (c :: cs) = .error error := by
  rw [feedAll, List.foldlM_cons, h]
  rfl

theorem feedAll_append_of_ok {s s' : State} {first : List Char}
    (h : s.feedAll keytable limit first = .ok s') (second : List Char)
    : s.feedAll keytable limit (first ++ second) = s'.feedAll keytable limit second := by
  rw [feedAll] at h
  rw [feedAll, List.foldlM_append, h]
  rfl

theorem feedAll_eq_error_iff {s : State} {cs : List Char} {error : CommandError}
    : s.feedAll keytable limit cs = .error error ↔
        ∃ c, firstUnbound? keytable cs = some c ∧ error = .unknownCommand c := by
  induction cs generalizing s with
  | nil => simp [firstUnbound?]
  | cons c cs ih =>
    rw [firstUnbound?_cons]
    cases hc : c.isDigit with
    | true =>
      rw [feedAll_cons_of_ok (feed_digit hc s), ih]
      simp
    | false =>
      cases hresolve : keytable.resolve? c with
      | none =>
        have hunbound := Keytable.resolve?_eq_none_iff.mp hresolve
        rw [feedAll_cons_of_error (feed_unbound hc hunbound s), hunbound]
        simp [eq_comm]
      | some action =>
        have hbound := Keytable.contains_iff_resolve?.mpr ⟨action, hresolve⟩
        rw [feedAll_cons_of_ok (feed_bound hc hresolve s), ih, hbound]
        simp

theorem mem_of_mem_flush {s : State} {action : Action} (h : action ∈ s.flush.output)
    : action ∈ s.output ++ s.staged := by
  simp only [flush, List.mem_append, List.mem_flatten, List.mem_replicate] at h ⊢
  rcases h with houtput | ⟨_, ⟨_, rfl⟩, hstaged⟩
  · exact .inl houtput
  · exact .inr hstaged

theorem mem_of_feed {s s' : State} {c : Char} (h : s.feed keytable limit c = .ok s')
    {action : Action} (haction : action ∈ s'.output ++ s'.staged)
    : action ∈ s.output ++ s.staged ∨ keytable.resolve? c = some action := by
  cases hc : c.isDigit with
  | true =>
    rw [feed_digit hc] at h
    cases h
    dsimp only at haction
    left
    split at haction
    · exact haction
    · apply mem_of_mem_flush
      simpa [flush] using haction
  | false =>
    cases hresolve : keytable.resolve? c with
    | none =>
      rw [feed_unbound hc (Keytable.resolve?_eq_none_iff.mp hresolve)] at h
      cases h
    | some bound =>
      rw [feed_bound hc hresolve] at h
      cases h
      simpa [or_assoc, eq_comm] using haction

theorem exists_key_of_feedAll {s s' : State} {cs : List Char}
    (h : s.feedAll keytable limit cs = .ok s') {action : Action}
    (haction : action ∈ s'.output ++ s'.staged)
    : action ∈ s.output ++ s.staged ∨ ∃ key ∈ cs, keytable.resolve? key = some action := by
  induction cs generalizing s with
  | nil =>
    cases h
    exact .inl haction
  | cons c cs ih =>
    cases hfeed : s.feed keytable limit c with
    | error error =>
      rw [feedAll_cons_of_error hfeed] at h
      cases h
    | ok next =>
      rw [feedAll_cons_of_ok hfeed] at h
      rcases ih h with hnext | ⟨key, hkey, hresolve⟩
      · rcases mem_of_feed hfeed hnext with hold | hresolve
        · exact .inl hold
        · exact .inr ⟨c, List.mem_cons_self, hresolve⟩
      · exact .inr ⟨key, List.mem_cons_of_mem c hkey, hresolve⟩

theorem feedAll_keys {keys : List Char} (hdigit : ∀ c ∈ keys, c.isDigit = false)
    (hbound : ∀ c ∈ keys, keytable.contains c = true) (s : State)
    : s.feedAll keytable limit keys
        =
      .ok { s with
        staged := s.staged ++ keytable.actions keys
        inNumber := s.inNumber && keys.isEmpty } := by
  induction keys generalizing s with
  | nil => simp [Keytable.actions]
  | cons key keys ih =>
    rw [List.forall_mem_cons] at hdigit hbound
    obtain ⟨action, haction⟩ := Keytable.contains_iff_resolve?.mp hbound.1
    rw [feedAll_cons_of_ok (feed_bound hdigit.1 haction s), ih hdigit.2 hbound.2]
    simp [Keytable.actions, haction]

/--
Cutting a number off at `limit` after every digit is as good as doing so once at its end, and the counter
does not need to go further than that.
-/
theorem min_appendSaturating (hlimit : limit ≤ maxCount) (n : Nat) (c : Char)
    : min (Numeral.appendSaturating maxCount (min n limit) c) limit
        =
      min (10 * n + (c.toNat - '0'.toNat)) limit := by
  unfold Numeral.appendSaturating
  generalize c.toNat - '0'.toNat = digit
  omega

theorem feedAll_digits (hlimit : limit ≤ maxCount) {digits : List Char}
    (hdigits : ∀ c ∈ digits, c.isDigit = true) {s : State} (hs : s.inNumber = true) {n : Nat}
    (hcount : s.count = min n limit)
    : s.feedAll keytable limit digits
        =
      .ok { s with count := min (Nat.ofDigitChars 10 digits n) limit } := by
  induction digits generalizing s n with
  | nil => simp [← hcount]
  | cons c digits ih =>
    rw [List.forall_mem_cons] at hdigits
    rw [feedAll_cons_of_ok (feed_digit hdigits.1 s), if_pos hs, Nat.ofDigitChars_cons]
    apply ih hdigits.2
    · exact hs
    · rw [← min_appendSaturating hlimit, hcount]

theorem feedAll_number (hlimit : limit ≤ maxCount) (g : Group) {s : State}
    (hs : s.inNumber = false)
    : s.feedAll keytable limit g.number
        =
      .ok { s.flush with count := min (Numeral.value g.number) limit, inNumber := true } := by
  have hdigits := g.number_isDigit
  cases hnumber : g.number with
  | nil => exact absurd hnumber g.number_ne_nil
  | cons c digits =>
    rw [hnumber, List.forall_mem_cons] at hdigits
    rw [feedAll_cons_of_ok (feed_digit hdigits.1 s), hs, Numeral.value, Nat.ofDigitChars_cons]
    apply feedAll_digits hlimit hdigits.2
    · rfl
    · rw [← min_appendSaturating hlimit]
      simp

theorem feedAll_group (hlimit : limit ≤ maxCount) (g : Group)
    (hbound : ∀ c ∈ g.keys, keytable.contains c = true) {s : State} (hs : s.inNumber = false)
    : ∃ s', s.feedAll keytable limit g.text = .ok s' ∧
        s'.flush.output = s.flush.output ++ g.actions keytable limit ∧
        s'.inNumber = g.keys.isEmpty := by
  rw [Group.text, feedAll_append_of_ok (feedAll_number hlimit g hs), feedAll_keys g.noDigit hbound]
  refine ⟨_, rfl, ?_, ?_⟩
  · simp [flush, Group.actions]
  · simp

theorem feedAll_groups (hlimit : limit ≤ maxCount) {groups : List Group}
    (hgroups : ∀ g ∈ groups.dropLast, g.keys ≠ [])
    (hbound : ∀ g ∈ groups, ∀ c ∈ g.keys, keytable.contains c = true) {s : State}
    (hs : s.inNumber = false)
    : ∃ s', s.feedAll keytable limit (groups.flatMap Group.text) = .ok s' ∧
        s'.flush.output = s.flush.output ++ groups.flatMap (Group.actions keytable limit) := by
  induction groups generalizing s with
  | nil => exact ⟨s, rfl, by simp⟩
  | cons g groups ih =>
    rw [apart_cons_iff] at hgroups
    rw [List.forall_mem_cons] at hbound
    obtain ⟨next, hnext, houtput, hinNumber⟩ := feedAll_group hlimit g hbound.1 hs
    rw [List.flatMap_cons, feedAll_append_of_ok hnext]
    rcases hgroups.1 with rfl | hkeys
    · exact ⟨next, rfl, by simpa using houtput⟩
    · -- the next group begins after a key, so its first digit begins a number
      have : next.inNumber = false := by simpa [hinNumber] using hkeys
      obtain ⟨s', hs', hrest⟩ := ih hgroups.2 hbound.2 this
      refine ⟨s', hs', ?_⟩
      rw [hrest, houtput]
      simp

end State

variable {keytable : Keytable} {limit : Nat}

theorem read_eq_error_iff {command : String} {error : CommandError}
    : read keytable limit command = .error error ↔
        ∃ c, firstUnbound? keytable command.toList = some c ∧ error = .unknownCommand c := by
  have h : State.start.feedAll keytable limit command.toList = .error error ↔ _ :=
    State.feedAll_eq_error_iff
  rw [← h, State.feedAll, read]
  cases command.toList.foldlM (State.feed keytable limit) .start <;> simp

theorem exists_key_of_read {command : String} {actions : List Action}
    (h : read keytable limit command = .ok actions) {action : Action} (haction : action ∈ actions)
    : ∃ key ∈ command.toList, keytable.resolve? key = some action := by
  unfold read at h
  split at h
  · cases h
  · rename_i s hs
    cases h
    rcases State.exists_key_of_feedAll hs (State.mem_of_mem_flush haction) with hstart | hkey
    · cases hstart
    · exact hkey

theorem read_of_bound (hlimit : limit ≤ maxCount) {command : String}
    (h : firstUnbound? keytable command.toList = none) {e : Grouping}
    (he : e.text = command.toList)
    : read keytable limit command = .ok (e.actions keytable limit) := by
  have hbound : ∀ c ∈ e.text, c.isDigit = false → keytable.contains c = true := by
    rw [firstUnbound?, ← he, List.find?_eq_none] at h
    simpa using h
  have hlead : State.start.feedAll keytable limit e.lead
        =
      .ok { State.start with staged := keytable.actions e.lead } := by
    apply State.feedAll_keys e.noDigit
    intro c hc
    exact hbound c (List.mem_append_left _ hc) (e.noDigit c hc)
  have hgroups : ∀ g ∈ e.groups, ∀ c ∈ g.keys, keytable.contains c = true := by
    intro g hg c hc
    apply hbound c _ (g.noDigit c hc)
    apply List.mem_append_right
    rw [List.mem_flatMap]
    exact ⟨g, hg, List.mem_append_right _ hc⟩
  obtain ⟨s, hs, houtput⟩ := State.feedAll_groups hlimit e.apart hgroups
    (s := { State.start with staged := keytable.actions e.lead }) rfl
  have hread : State.start.feedAll keytable limit command.toList = .ok s := by
    rw [← he, Grouping.text, State.feedAll_append_of_ok hlead]
    exact hs
  rw [State.feedAll] at hread
  rw [read, hread]
  dsimp only
  rw [houtput]
  simp [State.flush, State.start, Grouping.actions]

theorem length_actions_le (e : Grouping)
    : (e.actions keytable limit).length ≤ max 1 limit * (e.text.filter (!·.isDigit)).length := by
  have hlead : (keytable.actions e.lead).length ≤ max 1 limit * e.lead.length :=
    calc
      (keytable.actions e.lead).length ≤ e.lead.length := List.length_filterMap_le ..
      _ ≤ max 1 limit * e.lead.length := Nat.le_mul_of_pos_left _ (by omega)
  have hgroup : ∀ g : Group, (g.actions keytable limit).length ≤ max 1 limit * g.keys.length := by
    intro g
    simp only [Group.actions, List.length_flatten, List.map_replicate, List.sum_replicate_nat]
    apply Nat.mul_le_mul
    · omega
    · apply List.length_filterMap_le
  have hgroups : ∀ groups : List Group, (groups.flatMap (Group.actions keytable limit)).length ≤
      max 1 limit * (groups.flatMap Group.keys).length := by
    intro groups
    induction groups with
    | nil => simp
    | cons g groups ih =>
      have := hgroup g
      simp only [List.flatMap_cons, List.length_append, Nat.mul_add]
      omega
  have := hgroups e.groups
  rw [e.filter_text, Grouping.actions, List.length_append, List.length_append, Nat.mul_add]
  omega

/--
Every expression is divided into groups in one way. The first character that is not bound refuses it;
otherwise the keys in front of the first number are run once, and those of every group as often as its
number says, up to `limit`. No character amounts to more than `limit` actions, or one if that is more.
-/
theorem read_eq_actions (keytable : Keytable) {limit : Nat} (hlimit : limit < UInt64.size)
    (command : String)
    : (∃! e : Grouping, e.text = command.toList) ∧
      (∀ c, firstUnbound? keytable command.toList = some c →
        read keytable limit command = .error (.unknownCommand c)) ∧
      (firstUnbound? keytable command.toList = none → ∀ e : Grouping, e.text = command.toList →
        read keytable limit command = .ok (e.actions keytable limit)) ∧
      ∀ actions, read keytable limit command = .ok actions →
        actions.length ≤ max 1 limit * (command.toList.filter (!·.isDigit)).length := by
  have hcount : limit ≤ maxCount := Nat.le_of_lt_succ hlimit
  obtain ⟨e, he⟩ := Grouping.exists_text_eq command.toList
  refine ⟨⟨e, he, ?_⟩, ?_, ?_, ?_⟩
  · intro other hother
    apply Grouping.eq_of_text_eq
    rw [he, hother]
  · intro c hc
    exact read_eq_error_iff.mpr ⟨c, hc, rfl⟩
  · intro hbound e he
    exact read_of_bound hcount hbound he
  · intro actions hactions
    cases hunbound : firstUnbound? keytable command.toList with
    | some c =>
      rw [read_eq_error_iff.mpr ⟨c, hunbound, rfl⟩] at hactions
      cases hactions
    | none =>
      rw [read_of_bound hcount hunbound he] at hactions
      cases hactions
      rw [← he]
      apply length_actions_le

theorem read_eq_actions_capped
    : 3 < UInt64.size ∧
      read .default 3 "h012lj0m" = .ok [.moveCursor .left, .moveCursor .right, .moveCursor .down,
        .moveCursor .right, .moveCursor .down, .moveCursor .right, .moveCursor .down] ∧
      read .default 3 "h1?2x" = .error (.unknownCommand '?') := by
  have hlimit : 3 < UInt64.size := by decide
  obtain ⟨_, _, hread, _⟩ := read_eq_actions .default hlimit "h012lj0m"
  obtain ⟨_, hrefused, _⟩ := read_eq_actions .default hlimit "h1?2x"
  refine ⟨hlimit, ?_, hrefused '?' (by decide +kernel)⟩
  exact hread (by decide +kernel)
    ⟨['h'], [⟨['0', '1', '2'], ['l', 'j'], by decide +kernel, by simp [Char.isDigit]⟩,
      ⟨['0'], ['m'], by decide +kernel, by simp [Char.isDigit]⟩], by simp [Char.isDigit], by simp⟩
    rfl

end RepeatExpression

end SignalBoard
