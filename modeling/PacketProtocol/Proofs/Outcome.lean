import Mathlib.Data.List.Forall2
/-!
# Outcomes of steps that can fail

Writers and readers are chains of steps in `Except`. A chain that succeeds is taken apart step by
step: each step succeeded, and its value went into the next one.
-/

namespace PacketProtocol

variable {ε ε' α β : Type}

namespace Outcome

theorem ok_unique {x : Except ε α} {a b : α} (ha : x = .ok a) (hb : x = .ok b) : a = b := by
  rw [ha] at hb
  exact Except.ok.inj hb

theorem bind_eq_ok {x : Except ε α} {f : α → Except ε β} {b : β} :
    (x >>= f) = .ok b ↔ ∃ a, x = .ok a ∧ f a = .ok b := by
  cases x <;> simp [bind, Except.bind]

theorem map_eq_ok {f : α → β} {x : Except ε α} {b : β} :
    f <$> x = .ok b ↔ ∃ a, x = .ok a ∧ f a = b := by
  cases x <;> simp [Functor.map, Except.map]

theorem pure_eq_ok {a b : α} : (pure a : Except ε α) = .ok b ↔ a = b := by
  simp [pure, Except.pure]

theorem mapError_eq_ok {f : ε → ε'} {x : Except ε α} {a : α} :
    x.mapError f = .ok a ↔ x = .ok a := by
  cases x <;> simp [Except.mapError]

/-- Steps over a list succeed together iff each does; the results stand in the same order. -/
theorem mapM_eq_ok {f : α → Except ε β} {as : List α} {bs : List β} :
    as.mapM f = .ok bs ↔ List.Forall₂ (fun a b => f a = .ok b) as bs := by
  induction as generalizing bs with
  | nil => rw [List.mapM_nil, pure_eq_ok, List.forall₂_nil_left_iff, eq_comm]
  | cons a as ih =>
    rw [List.mapM_cons, bind_eq_ok]
    constructor
    · rintro ⟨b, hb, h⟩
      obtain ⟨bs, hbs, h⟩ := bind_eq_ok.1 h
      obtain rfl := pure_eq_ok.1 h
      exact .cons hb (ih.1 hbs)
    · rintro (_ | ⟨hb, hbs⟩)
      exact ⟨_, hb, bind_eq_ok.2 ⟨_, ih.2 hbs, rfl⟩⟩

theorem exists_mapM {f : α → Except ε β} {as : List α} (h : ∀ a ∈ as, ∃ b, f a = .ok b) :
    ∃ bs, as.mapM f = .ok bs := by
  induction as with
  | nil => exact ⟨[], rfl⟩
  | cons a as ih =>
    obtain ⟨b, hb⟩ := h a (by simp)
    obtain ⟨bs, hbs⟩ := ih fun a ha => h a (by simp [ha])
    exact ⟨b :: bs, mapM_eq_ok.2 (.cons hb (mapM_eq_ok.1 hbs))⟩

/-- Entries written one by one and put together. -/
theorem flatten_mapM_eq_ok {f : α → Except ε (List β)} {as : List α} {bs : List β} :
    (do return (← as.mapM f).flatten) = (.ok bs : Except ε (List β)) ↔
      ∃ chunks, List.Forall₂ (fun a chunk => f a = .ok chunk) as chunks ∧ chunks.flatten = bs := by
  rw [bind_eq_ok]
  simp only [mapM_eq_ok, pure_eq_ok]

/-- Steps over a list that each succeed, and what is made of their results. -/
theorem exists_mapM_pure {γ : Type} {f : α → Except ε β} {g : List β → γ} {as : List α}
    (h : ∀ a ∈ as, ∃ b, f a = .ok b) : ∃ c, (as.mapM f >>= fun bs => pure (g bs)) = .ok c := by
  obtain ⟨bs, hbs⟩ := exists_mapM h
  exact ⟨g bs, bind_eq_ok.2 ⟨bs, hbs, rfl⟩⟩

theorem exists_of_forall₂ {r : α → β → Prop} {as : List α} {bs : List β} (h : List.Forall₂ r as bs) :
    ∀ b ∈ bs, ∃ a ∈ as, r a b := by
  induction h with
  | nil => nofun
  | cons hab _ ih =>
    intro b hb
    rcases List.mem_cons.1 hb with rfl | hb
    · exact ⟨_, List.mem_cons_self, hab⟩
    · obtain ⟨a, ha, hr⟩ := ih b hb
      exact ⟨a, List.mem_cons_of_mem _ ha, hr⟩

theorem forall₂_comp {γ : Type} {r : α → β → Prop} {s : β → γ → Prop} {as : List α} {bs : List β} {cs : List γ}
    (h : List.Forall₂ r as bs) (h' : List.Forall₂ s bs cs) : List.Forall₂ (fun a c => ∃ b, r a b ∧ s b c) as cs := by
  induction h generalizing cs with
  | nil => cases h'; exact .nil
  | cons hab _ ih =>
    obtain _ | ⟨hbc, h'⟩ := h'
    exact .cons ⟨_, hab, hbc⟩ (ih h')

theorem exists_mapM_iff {f : α → Except ε β} {as : List α} :
    (∃ bs, as.mapM f = .ok bs) ↔ ∀ a ∈ as, ∃ b, f a = .ok b := by
  refine ⟨?_, exists_mapM⟩
  rintro ⟨bs, hbs⟩ a ha
  obtain ⟨b, -, hb⟩ := exists_of_forall₂ (mapM_eq_ok.1 hbs).flip a ha
  exact ⟨b, hb⟩

/-- A first step that succeeds. -/
theorem exists_bind_of_ok {x : Except ε α} {f : α → Except ε β} {a : α} (hx : x = .ok a) :
    (∃ b, (x >>= f) = .ok b) ↔ ∃ b, f a = .ok b := by
  rw [hx]
  rfl

/-- Steps behind the first that always succeed. -/
theorem exists_bind_of_total {x : Except ε α} {f : α → Except ε β} (hf : ∀ a, ∃ b, f a = .ok b) :
    (∃ b, (x >>= f) = .ok b) ↔ ∃ a, x = .ok a := by
  constructor
  · rintro ⟨b, hb⟩
    obtain ⟨a, ha, -⟩ := bind_eq_ok.1 hb
    exact ⟨a, ha⟩
  · rintro ⟨a, ha⟩
    exact (exists_bind_of_ok ha).2 (hf a)

end Outcome

end PacketProtocol
