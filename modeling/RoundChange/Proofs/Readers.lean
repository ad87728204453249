/-
# Running a reader

A reader takes a value from the front of its input or fails.  Where its first part is
known to succeed, the rest of it runs on what that part left over; and where the whole is known
to succeed, so did each part (`Reader.run_bind_eq_ok_iff`).
-/

namespace RoundChange
namespace Reader

variable {σ ε α β : Type} {p : StateT σ (Except ε) α} {s s' : σ} {a : α}

/-- **The rest of a reader runs on what its first part leaves.** -/
theorem run_bind_of_ok (h : p.run s = .ok (a, s')) (f : α → StateT σ (Except ε) β) :
    (p >>= f).run s = (f a).run s' := by
  rw [StateT.run_bind, h]
  rfl

/-- A function of what is read is read from the same front. -/
theorem run_map_of_ok (h : p.run s = .ok (a, s')) (f : α → β) :
    (f <$> p).run s = .ok (f a, s') := by
  rw [StateT.run_map, h]
  rfl

/-- **A reader succeeds where its parts do**, one on what the other leaves. -/
theorem run_bind_eq_ok_iff {f : α → StateT σ (Except ε) β} {b : β} {t : σ} :
    (p >>= f).run s = .ok (b, t) ↔ ∃ a s', p.run s = .ok (a, s') ∧ (f a).run s' = .ok (b, t) := by
  constructor
  · intro h
    rw [StateT.run_bind] at h
    cases hp : p.run s with
    | error e =>
      rw [hp] at h
      cases h
    | ok read =>
      rw [hp] at h
      exact ⟨read.1, read.2, rfl, h⟩
  · rintro ⟨a, s', hp, hf⟩
    rw [run_bind_of_ok hp, hf]

/-- Reading nothing leaves everything. -/
theorem run_pure_eq_ok_iff {b : α} {t : σ} :
    (pure a : StateT σ (Except ε) α).run s = .ok (b, t) ↔ a = b ∧ s = t := by
  constructor
  · exact fun h => Prod.mk.inj (Except.ok.inj h)
  · rintro ⟨rfl, rfl⟩
    rfl

/-- A function of a value is read where the value is. -/
theorem run_map_eq_ok_iff {f : α → β} {b : β} {t : σ} :
    (f <$> p).run s = .ok (b, t) ↔ ∃ a, p.run s = .ok (a, t) ∧ f a = b := by
  rw [← bind_pure_comp, run_bind_eq_ok_iff]
  constructor
  · rintro ⟨a, s', hp, h⟩
    obtain ⟨rfl, rfl⟩ := run_pure_eq_ok_iff.1 h
    exact ⟨a, hp, rfl⟩
  · rintro ⟨a, hp, rfl⟩
    exact ⟨a, t, hp, rfl⟩

end Reader
end RoundChange
