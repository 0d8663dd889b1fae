import SignalBoard.Proofs.Module.Snapshot

/-!
This module shows that the properties of a module are all that is needed to set up another one like it:
`Module.load_snapshot`.
-/

namespace SignalBoard

namespace Module

/--
The properties of a module can be written to every module of its kind. All that operators can set is then
as in the first module, while position and background stay, whatever there was before.
-/
theorem load_snapshot {c m : Module} (hkind : c.kind = m.kind)
    : (∃ r, c.edit m.properties.asChanges = .ok r ∧ r.profile = m.profile ∧
        r.position = c.position ∧ r.background? = c.background?) ∧
      m.edit m.properties.asChanges = .ok m ∧
      ∀ n : Module, n.kind = m.kind → ∃ between, c.edit n.properties.asChanges = .ok between ∧
        between.edit m.properties.asChanges = c.edit m.properties.asChanges := by
  obtain ⟨r, hr, houtside, hprofile⟩ := edit_asChanges hkind
  have hself : m.edit [] = .ok m := rfl
  refine ⟨⟨r, hr, hprofile, houtside.position, houtside.background⟩, edit_back hself, ?_⟩
  intro n hn
  obtain ⟨between, hbetween, hkept, _⟩ := edit_asChanges (hkind.trans hn.symm)
  obtain ⟨last, hlast, hkeptLast, hprofileLast⟩ := edit_asChanges (hkept.kind.trans hkind)
  have hkeptBoth := hkept.trans hkeptLast
  refine ⟨between, hbetween, ?_⟩
  rw [hlast, hr]
  apply congrArg
  apply ext_profile (hprofileLast.trans hprofile.symm)
  · exact hkeptBoth.position.trans houtside.position.symm
  · exact hkeptBoth.background.trans houtside.background.symm

theorem load_snapshot_emitter
    : let m : Module := ⟨.origin, .emitter ⟨⟨',', ⟨0, 10, 255⟩, ⟨1, 2, 3⟩⟩, .all, 4294967295, 0⟩⟩
      let c := Module.new .emitter ⟨3, 4⟩
      c.kind = m.kind ∧
      ∃ r, c.edit m.properties.asChanges = .ok r ∧
        r.profile = .emitter ',' ⟨0, 10, 255⟩ .all 4294967295 0 ∧
        r.position = ⟨3, 4⟩ ∧ r.background? = some Symbol.defaultBackground := by
  intro m c
  have hkind : c.kind = m.kind := by decide
  exact ⟨hkind, (load_snapshot hkind).1⟩

end Module

end SignalBoard
