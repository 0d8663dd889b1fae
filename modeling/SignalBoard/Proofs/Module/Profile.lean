import SignalBoard.Module.Slot

/-!
This module contains the profile of a module: all that an operator can set on it. A profile is the kind
together with the values in the slots, which `Body.profile_eq_iff` says of the slots alone, and a module
is its profile with a position and a background, by `Module.ext_profile`.
-/

namespace SignalBoard

/--
A kind with all that operators can set on modules of this kind.
-/
inductive Profile where
  | empty
  | spreader (glyph : Char) (foreground : Color) (inputs outputs : Directions)
  | emitter (glyph : Char) (foreground : Color) (outputs : Directions) (interval offset : UInt32)
deriving DecidableEq

namespace Body

def profile : Body → Profile
  | .empty => .empty
  | .spreader s => .spreader s.symbol.glyph s.symbol.foreground s.inputs s.outputs
  | .emitter e => .emitter e.symbol.glyph e.symbol.foreground e.outputs e.interval e.offset

/--
The color behind the symbol, which is not among the properties.
-/
def background? (b : Body) : Option Color :=
  b.symbol?.map Symbol.background

theorem kind_eq_of_profile {b c : Body} (h : b.profile = c.profile) : b.kind = c.kind := by
  cases b <;> cases c <;> simp_all [profile, kind]

theorem read?_eq_of_profile {b c : Body} (h : b.profile = c.profile) (slot : Slot)
    : b.read? slot = c.read? slot := by
  cases b with
  | empty => cases c <;> simp_all [profile, read?]
  | spreader s =>
    cases c <;> simp only [profile, reduceCtorEq, Profile.spreader.injEq] at h
    obtain ⟨hglyph, hforeground, hinputs, houtputs⟩ := h
    rcases slot with _ | _ | ⟨_ | _, d⟩ | _ | _ <;>
      simp [read?, Spreader.read?, Symbol.read?, hglyph, hforeground, hinputs, houtputs]
  | emitter e =>
    cases c <;> simp only [profile, reduceCtorEq, Profile.emitter.injEq] at h
    obtain ⟨hglyph, hforeground, houtputs, hinterval, hoffset⟩ := h
    rcases slot with _ | _ | ⟨_ | _, d⟩ | _ | _ <;>
      simp [read?, Emitter.read?, Symbol.read?, hglyph, hforeground, houtputs, hinterval, hoffset]

/--
The values in the slots determine all that operators can set, and with it the kind.
-/
theorem profile_eq_of_read? {b c : Body} (h : ∀ slot, b.read? slot = c.read? slot)
    : b.profile = c.profile := by
  have hglyph := h .character
  have hforeground := h .color
  have hinput := fun d => h (.opening .input d)
  have houtput := fun d => h (.opening .output d)
  have hinterval := h .interval
  have hoffset := h .offset
  -- only spreaders have inputs and only emitters an interval, so bodies of two kinds differ in a slot
  cases b with
  | empty =>
    cases c with
    | empty => rfl
    | spreader t => simp [read?, Spreader.read?] at hinput
    | emitter f => simp [read?, Emitter.read?] at hinterval
  | spreader s =>
    cases c with
    | empty => simp [read?, Spreader.read?] at hinput
    | spreader t =>
      simp only [read?, Spreader.read?, Symbol.read?, Option.some.injEq, PropertyValue.bool.injEq,
        PropertyValue.char.injEq, PropertyValue.color.injEq] at *
      simp [profile, hglyph, hforeground, Directions.ext hinput, Directions.ext houtput]
    | emitter f => simp [read?, Spreader.read?, Emitter.read?, Symbol.read?] at hinterval
  | emitter e =>
    cases c with
    | empty => simp [read?, Emitter.read?] at hinterval
    | spreader t => simp [read?, Spreader.read?, Emitter.read?, Symbol.read?] at hinterval
    | emitter f =>
      simp only [read?, Emitter.read?, Symbol.read?, Option.some.injEq, PropertyValue.bool.injEq,
        PropertyValue.char.injEq, PropertyValue.color.injEq, PropertyValue.int.injEq] at *
      simp [profile, hglyph, hforeground, Directions.ext houtput, hinterval, hoffset]

theorem profile_eq_iff {b c : Body}
    : b.profile = c.profile ↔ ∀ slot, b.read? slot = c.read? slot :=
  ⟨read?_eq_of_profile, profile_eq_of_read?⟩

theorem ext_profile {b c : Body} (hprofile : b.profile = c.profile)
    (hbackground : b.background? = c.background?) : b = c := by
  cases b with
  | empty => cases c <;> simp_all [profile]
  | spreader s =>
    cases c <;> simp only [profile, reduceCtorEq, Profile.spreader.injEq] at hprofile
    rcases s with ⟨⟨_, _, _⟩, _, _⟩
    simp_all [background?, symbol?]
  | emitter e =>
    cases c <;> simp only [profile, reduceCtorEq, Profile.emitter.injEq] at hprofile
    rcases e with ⟨⟨_, _, _⟩, _, _, _⟩
    simp_all [background?, symbol?]

end Body

namespace Module

def profile (m : Module) : Profile :=
  m.body.profile

def background? (m : Module) : Option Color :=
  m.body.background?

/--
A module is determined by what operators can set on it, its position and its background.
-/
theorem ext_profile {m c : Module} (hprofile : m.profile = c.profile)
    (hposition : m.position = c.position) (hbackground : m.background? = c.background?) : m = c := by
  cases m
  cases c
  cases hposition
  cases Body.ext_profile hprofile hbackground
  rfl

end Module

end SignalBoard
