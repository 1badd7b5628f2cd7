import Mathlib.Data.List.Basic

/-!
# Answers and errors

A sequence of steps has an answer when each of its steps has (`bind_eq_ok`), and a list is gone through when each of its items
can be (`exists_mapM`, `exists_of_mem_mapM`). What every step of a run keeps, the run keeps (`foldlM_inv`).
-/

namespace EquityScreen

/-- A sequence has an answer when each of its steps has. -/
theorem bind_eq_ok {ε α β : Type} {x : Except ε α} {f : α → Except ε β} {b : β} (h : (x >>= f) = .ok b) :
    ∃ a, x = .ok a ∧ f a = .ok b := by
  cases x with
  | error e => exact absurd h (by simp [bind, Except.bind])
  | ok a => exact ⟨a, rfl, h⟩

theorem map_eq_ok {ε α β : Type} {x : Except ε α} {f : α → β} {b : β} (h : x.map f = .ok b) : ∃ a, x = .ok a ∧ f a = b := by
  cases x with
  | error e => exact absurd h (by simp [Except.map])
  | ok a => exact ⟨a, rfl, Except.ok.inj h⟩

/-- Saying an error in other words leaves an answer as it is. -/
theorem mapError_eq_ok {ε ε' α : Type} {x : Except ε α} {f : ε → ε'} {a : α} (h : x.mapError f = .ok a) : x = .ok a := by
  cases x with
  | error e => exact absurd h (by simp [Except.mapError])
  | ok a' => exact congrArg _ (Except.ok.inj h)

/-- A sequence fails in its first step or in the rest. -/
theorem bind_eq_error {ε α β : Type} {x : Except ε α} {f : α → Except ε β} {e : ε} (h : (x >>= f) = .error e) :
    x = .error e ∨ ∃ a, x = .ok a ∧ f a = .error e := by
  cases x with
  | error e' => exact .inl (congrArg _ (Except.error.inj h))
  | ok a => exact .inr ⟨a, rfl, h⟩

theorem mapError_eq_error {ε ε' α : Type} {x : Except ε α} {f : ε → ε'} {e' : ε'} (h : x.mapError f = .error e') :
    ∃ e, x = .error e ∧ f e = e' := by
  cases x with
  | error e => exact ⟨e, rfl, Except.error.inj h⟩
  | ok a => exact absurd h (by simp [Except.mapError])

theorem eq_ok_of_toOption {ε α : Type} {x : Except ε α} {a : α} (h : x.toOption = some a) : x = .ok a := by
  cases x with
  | error e => exact absurd h (by simp [Except.toOption])
  | ok a' => exact congrArg _ (Option.some.inj h)

/-- A list is gone through when each item can be. -/
theorem exists_mapM {ε α β : Type} {f : α → Except ε β} {as : List α} (h : ∀ a ∈ as, ∃ b, f a = .ok b) :
    ∃ bs, as.mapM f = .ok bs := by
  induction as with
  | nil => exact ⟨[], rfl⟩
  | cons a rest ih =>
    obtain ⟨b, hb⟩ := h a List.mem_cons_self
    obtain ⟨bs, hbs⟩ := ih fun a ha => h a (List.mem_cons_of_mem _ ha)
    exact ⟨b :: bs, by rw [List.mapM_cons, hb, hbs]; rfl⟩

/-- Of a list that is gone through each item can be. -/
theorem exists_of_mapM {ε α β : Type} {f : α → Except ε β} {as : List α} {bs : List β} (h : as.mapM f = .ok bs) :
    ∀ a ∈ as, ∃ b, f a = .ok b := by
  induction as generalizing bs with
  | nil => exact List.forall_mem_nil _
  | cons a rest ih =>
    rw [List.mapM_cons] at h
    obtain ⟨b, hb, h⟩ := bind_eq_ok h
    obtain ⟨bs', hbs, -⟩ := bind_eq_ok h
    exact List.forall_mem_cons.2 ⟨⟨b, hb⟩, ih hbs⟩

/-- What comes of a list comes of its items. -/
theorem exists_of_mem_mapM {ε α β : Type} {f : α → Except ε β} {as : List α} {bs : List β} (h : as.mapM f = .ok bs) {b : β}
    (hb : b ∈ bs) : ∃ a ∈ as, f a = .ok b := by
  induction as generalizing bs with
  | nil =>
    obtain rfl := Except.ok.inj h
    exact absurd hb List.not_mem_nil
  | cons a rest ih =>
    rw [List.mapM_cons] at h
    obtain ⟨c, hc, h⟩ := bind_eq_ok h
    obtain ⟨cs, hcs, h⟩ := bind_eq_ok h
    obtain rfl := Except.ok.inj h
    rcases List.mem_cons.1 hb with rfl | hb
    · exact ⟨a, List.mem_cons_self, hc⟩
    · obtain ⟨a', ha', hb'⟩ := ih hcs hb
      exact ⟨a', List.mem_cons_of_mem _ ha', hb'⟩

/-- What comes of an item is among what comes of the list. -/
theorem mem_of_mapM {ε α β : Type} {f : α → Except ε β} {as : List α} {bs : List β} (h : as.mapM f = .ok bs) {a : α}
    (ha : a ∈ as) {b : β} (hb : f a = .ok b) : b ∈ bs := by
  induction as generalizing bs with
  | nil => exact absurd ha List.not_mem_nil
  | cons a' rest ih =>
    rw [List.mapM_cons] at h
    obtain ⟨c, hc, h⟩ := bind_eq_ok h
    obtain ⟨cs, hcs, h⟩ := bind_eq_ok h
    obtain rfl := Except.ok.inj h
    rcases List.mem_cons.1 ha with rfl | ha
    · obtain rfl := Except.ok.inj (hc.symm.trans hb)
      exact List.mem_cons_self
    · exact List.mem_cons_of_mem _ (ih hcs ha)

/-- What comes of a list is related as the items of the list are. -/
theorem pairwise_of_mapM {ε α β : Type} {f : α → Except ε β} {R : α → α → Prop} {S : β → β → Prop}
    (hRS : ∀ {a a' : α} {b b' : β}, f a = .ok b → f a' = .ok b' → R a a' → S b b') {as : List α} {bs : List β}
    (h : as.mapM f = .ok bs) (hR : as.Pairwise R) : bs.Pairwise S := by
  induction hR generalizing bs with
  | nil =>
    obtain rfl := Except.ok.inj h
    exact .nil
  | cons ha _ ih =>
    rw [List.mapM_cons] at h
    obtain ⟨b, hb, h⟩ := bind_eq_ok h
    obtain ⟨bs', hbs, h⟩ := bind_eq_ok h
    obtain rfl := Except.ok.inj h
    refine List.pairwise_cons.2 ⟨fun b' hb' => ?_, ih hbs⟩
    obtain ⟨a', ha', hfa'⟩ := exists_of_mem_mapM hbs hb'
    exact hRS hb hfa' (ha a' ha')

/-- A list is not gone through when an item cannot be and all before it can; the error is that of this item. -/
theorem mapM_eq_error_iff {ε α β : Type} {f : α → Except ε β} {as : List α} {e : ε} :
    as.mapM f = .error e ↔
      ∃ front a rest, as = front ++ a :: rest ∧ (∀ b ∈ front, ∃ c, f b = .ok c) ∧ f a = .error e := by
  induction as with
  | nil =>
    constructor
    · intro h
      exact absurd h nofun
    · rintro ⟨front, a, rest, h, -⟩
      exact absurd h (by simp)
  | cons a rest ih =>
    rw [List.mapM_cons]
    constructor
    · intro h
      rcases bind_eq_error h with ha | ⟨b, hb, h⟩
      · exact ⟨[], a, rest, rfl, fun _ hmem => absurd hmem List.not_mem_nil, ha⟩
      · rcases bind_eq_error h with hrest | ⟨bs, -, h⟩
        · obtain ⟨front, a', rest', rfl, hfront, ha'⟩ := ih.1 hrest
          exact ⟨a :: front, a', rest', rfl, List.forall_mem_cons.2 ⟨⟨b, hb⟩, hfront⟩, ha'⟩
        · exact absurd h nofun
    · rintro ⟨front, a', rest', h, hfront, ha'⟩
      cases front with
      | nil =>
        obtain ⟨rfl, rfl⟩ := List.cons.inj h
        rw [ha']
        rfl
      | cons b front =>
        obtain ⟨rfl, rfl⟩ := List.cons.inj h
        obtain ⟨⟨c, hc⟩, hfront⟩ := List.forall_mem_cons.1 hfront
        rw [hc, ih.2 ⟨front, a', rest', rfl, hfront, ha'⟩]
        rfl

/-- Where one step gives what another does, changed, it gives of a list what the other does, changed. -/
theorem mapM_eq_map {ε α β γ : Type} {f : α → Except ε β} {g : β → γ} {f' : α → Except ε γ} {as : List α}
    (hf : ∀ a ∈ as, ∀ b, f a = .ok b → f' a = .ok (g b)) {bs : List β} (h : as.mapM f = .ok bs) :
    as.mapM f' = .ok (bs.map g) := by
  induction as generalizing bs with
  | nil =>
    obtain rfl := Except.ok.inj h
    rfl
  | cons a rest ih =>
    rw [List.mapM_cons] at h
    obtain ⟨b, hb, h⟩ := bind_eq_ok h
    obtain ⟨bs', hbs, h⟩ := bind_eq_ok h
    obtain rfl := Except.ok.inj h
    rw [List.mapM_cons, hf a List.mem_cons_self b hb, ih (fun a ha => hf a (List.mem_cons_of_mem _ ha)) hbs]
    rfl

/-- Where no step fails, a list gives what its items give. -/
theorem mapM_of_forall {ε α β : Type} {f : α → Except ε β} {g : α → β} {as : List α} (h : ∀ a ∈ as, f a = .ok (g a)) :
    as.mapM f = .ok (as.map g) := by
  induction as with
  | nil => rfl
  | cons a rest ih =>
    rw [List.mapM_cons, h a List.mem_cons_self, ih fun a ha => h a (List.mem_cons_of_mem _ ha)]
    rfl

/-- A list of which each item gives what it was made of gives the list that it was made of. -/
theorem mapM_map_of_forall {ε α β : Type} {f : β → Except ε α} {g : α → β} {as : List α} (h : ∀ a ∈ as, f (g a) = .ok a) :
    (as.map g).mapM f = .ok as := by
  have hid : as.mapM (f ∘ g) = .ok (as.map id) := mapM_of_forall h
  rw [List.mapM_map, hid, List.map_id]

/-- What every step keeps the whole sequence keeps. -/
theorem foldlM_inv {ε α β : Type} {f : β → α → Except ε β} {P : β → Prop}
    (hstep : ∀ {b b' : β} {a : α}, P b → f b a = .ok b' → P b') {as : List α} {b b' : β} (hb : P b)
    (h : as.foldlM f b = .ok b') : P b' := by
  induction as generalizing b with
  | nil =>
    obtain rfl := Except.ok.inj h
    exact hb
  | cons a rest ih =>
    rw [List.foldlM_cons] at h
    obtain ⟨b₁, ha, hrest⟩ := bind_eq_ok h
    exact ih (hstep hb ha) hrest

end EquityScreen
