/-!
# Answers that are no errors

What a chain of steps that may fail has gone through when it answers, and what
comes out when no step fails.
-/

namespace FlowTally

theorem bind_ok {x : Except ε α} {f : α → Except ε β} {b : β} :
    x.bind f = .ok b ↔ ∃ a, x = .ok a ∧ f a = .ok b := by
  cases x <;> simp [Except.bind]

theorem map_ok {x : Except ε α} {f : α → β} {b : β} :
    x.map f = .ok b ↔ ∃ a, x = .ok a ∧ f a = b := by
  cases x <;> simp [Except.map]

theorem mapError_ok {x : Except ε α} {f : ε → δ} {a : α} : x.mapError f = .ok a ↔ x = .ok a := by
  cases x with
  | error e =>
    constructor
    · intro h
      cases h
    · intro h
      cases h
  | ok b =>
    have hmap : (Except.ok b : Except ε α).mapError f = .ok b := rfl
    rw [hmap, Except.ok.injEq, Except.ok.injEq]

theorem mapM_eq_pure [Monad m] [LawfulMonad m] {items : List α} {f : α → m β} {g : α → β}
    (h : ∀ item ∈ items, f item = pure (g item)) : items.mapM f = pure (items.map g) := by
  induction items with
  | nil => rfl
  | cons item rest ih =>
    obtain ⟨hitem, hrest⟩ := List.forall_mem_cons.mp h
    simp [List.mapM_cons, hitem, ih hrest]

theorem exists_of_mapM_eq_some {items : List α} {f : α → Option β} {found : List β}
    (h : items.mapM f = some found) : ∀ item ∈ items, ∃ b, f item = some b := by
  induction items generalizing found with
  | nil => simp
  | cons item rest ih =>
    simp only [List.mapM_cons, Option.bind_eq_bind, Option.bind_eq_some_iff] at h
    obtain ⟨b, hitem, others, hrest, -⟩ := h
    exact List.forall_mem_cons.mpr ⟨⟨b, hitem⟩, ih hrest⟩

end FlowTally
