/-!
# One pass over bars

An indicator that is computed in one pass keeps a state; each bar changes it and gives one value. What such a pass gives for
the first bars does not depend on the bars that follow (`scan_take`).
-/

namespace EquityScreen

variable {σ α β : Type}

/-- The values that a pass gives, bar by bar. -/
def scan (step : σ → α → σ × β) (s : σ) : List α → List β
  | [] => []
  | x :: rest => (step s x).2 :: scan step (step s x).1 rest

/-- The state after the bars. -/
def scanState (step : σ → α → σ × β) (s : σ) (xs : List α) : σ :=
  xs.foldl (fun s x => (step s x).1) s

@[simp] theorem length_scan (step : σ → α → σ × β) (s : σ) (xs : List α) : (scan step s xs).length = xs.length := by
  induction xs generalizing s with
  | nil => rfl
  | cons x rest ih => simp [scan, ih]

/-- The value at a bar is what the step gives there, after the bars before it. -/
theorem getElem?_scan (step : σ → α → σ × β) (s : σ) {i : Nat} {xs : List α} (hi : i < xs.length) :
    (scan step s xs)[i]? = some (step (scanState step s (xs.take i)) xs[i]).2 := by
  induction xs generalizing s i with
  | nil => exact absurd hi (Nat.not_lt_zero i)
  | cons x rest ih =>
    cases i with
    | zero => rfl
    | succ i => exact ih _ (Nat.lt_of_succ_lt_succ hi)

/-- One bar more. -/
theorem scanState_concat (step : σ → α → σ × β) (s : σ) (xs : List α) (x : α) :
    scanState step s (xs ++ [x]) = (step (scanState step s xs) x).1 := by
  rw [scanState, List.foldl_append]
  rfl

/-- A pass that carries nothing but a part of the bar before goes over the bars beside these parts. -/
theorem scan_eq_zipWith {γ : Type} {step : Option γ → α → Option γ × β} (part : α → γ)
    (h : ∀ before x, (step before x).1 = some (part x)) (before : Option γ) (xs : List α) :
    scan step before xs = List.zipWith (fun before x => (step before x).2) (before :: xs.map fun x => some (part x)) xs := by
  induction xs generalizing before with
  | nil => rfl
  | cons x rest ih => rw [scan, h, ih, List.map_cons, List.zipWith_cons_cons]

/-- The pass over the first bars gives the first values. -/
theorem scan_take (step : σ → α → σ × β) (s : σ) (m : Nat) (xs : List α) :
    scan step s (xs.take m) = (scan step s xs).take m := by
  induction xs generalizing s m with
  | nil => simp [scan]
  | cons x rest ih => cases m <;> simp [scan, ih]

end EquityScreen
