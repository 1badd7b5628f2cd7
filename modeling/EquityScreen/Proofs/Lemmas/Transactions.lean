import EquityScreen.Proofs.Lemmas.Answers
import EquityScreen.Proofs.Lemmas.Maps
import EquityScreen.Store.Transaction

/-!
# What a transaction writes and takes back

A bar is written over the row of its symbol and its day and over no other (`row?_putBar`), so of bars written one after another
the last of a symbol and a day is its row (`row?_foldlM_putBar`). What one write replaces is noted with it, and taking the
write back gives the tables before it (`Transaction.takenBack_put`). So whatever a transaction has written, and wherever it
ended, what is left when all is taken back are the tables that it began with (`Transaction.takenBack_putAll`). The ways in which
it can end are told apart once (`Store.ended_upsertBars`).
-/

namespace EquityScreen

namespace DailyBar

variable {b c : DailyBar}

/-- The bar has a number for each of its prices. -/
def HasPrices (b : DailyBar) : Prop := ∀ x ∈ [b.openPrice, b.high, b.low, b.close], x.isNaN = false

instance (b : DailyBar) : Decidable b.HasPrices :=
  inferInstanceAs (Decidable (∀ x ∈ [b.openPrice, b.high, b.low, b.close], x.isNaN = false))

/-- The last of the bars of a symbol and a day. -/
def lastOf (bs : List DailyBar) (symbol day : String) : Option DailyBar :=
  bs.reverse.find? fun b => b.symbol == symbol && b.day == day

theorem lastOf_append (front rest : List DailyBar) (symbol day : String) :
    lastOf (front ++ rest) symbol day = (lastOf rest symbol day).or (lastOf front symbol day) := by
  rw [lastOf, List.reverse_append, List.find?_append, lastOf, lastOf]

theorem lastOf_cons (b : DailyBar) (rest : List DailyBar) (symbol day : String) : lastOf (b :: rest) symbol day =
    (lastOf rest symbol day).or (if symbol = b.symbol ∧ day = b.day then some b else none) := by
  rw [← List.singleton_append, lastOf_append, lastOf, lastOf, List.reverse_singleton, List.find?_singleton]
  simp only [Bool.and_eq_true, beq_iff_eq, @eq_comm _ symbol, @eq_comm _ day]

/-- The last of the bars of a symbol and a day is one of them. -/
theorem lastOf_eq_some {bs : List DailyBar} {symbol day : String} (h : lastOf bs symbol day = some b) :
    b ∈ bs ∧ b.symbol = symbol ∧ b.day = day := by
  have hkey : b.symbol = symbol ∧ b.day = day := by simpa using List.find?_some h
  exact ⟨List.mem_reverse.1 (List.mem_of_find?_eq_some h), hkey⟩

/-- There is a last of the bars of a symbol and a day if there is one. -/
theorem isSome_lastOf_iff {bs : List DailyBar} {symbol day : String} :
    (lastOf bs symbol day).isSome = true ↔ ∃ b ∈ bs, b.symbol = symbol ∧ b.day = day := by
  simp [lastOf, List.find?_isSome]

/-- A bar is the row that the table keeps of it, if it has its prices. -/
theorem isSome_stored?_iff : b.stored?.isSome = true ↔ b.HasPrices := by
  have hnumber (x : Float) : (Record.storedNumber x).isSome = true ↔ x.isNaN = false := by
    unfold Record.storedNumber
    cases x.isNaN <;> simp
  simp only [stored?, HasPrices, bind, pure, Option.isSome_bind, List.forall_mem_cons, ← hnumber]
  cases Record.storedNumber b.openPrice <;> cases Record.storedNumber b.high <;> cases Record.storedNumber b.low <;>
    cases Record.storedNumber b.close <;> simp

/-- The row of a bar has the bar's symbol and day. -/
theorem keys_stored? (h : b.stored? = some c) : c.symbol = b.symbol ∧ c.day = b.day := by
  simp only [stored?, bind, pure, Option.bind_eq_some_iff] at h
  obtain ⟨_, -, _, -, _, -, _, -, h⟩ := h
  obtain rfl := Option.some.inj h
  exact ⟨rfl, rfl⟩

end DailyBar

namespace Store

/-- What a store answers it answers while it is open. -/
theorem answer_eq_ok {α : Type} {s : Store} {a b : α} (h : s.answer a = .ok b) : s.isClosed = false ∧ a = b := by
  unfold answer at h
  cases hc : s.isClosed with
  | true => simp [hc] at h
  | false => exact ⟨rfl, by simpa [hc] using h⟩

/-- A store that does not answer is closed. -/
theorem answer_eq_error {α : Type} {s : Store} {a : α} {e : StoreError} (h : s.answer a = .error e) :
    e = .closed ∧ s.isClosed = true := by
  unfold answer at h
  cases hc : s.isClosed with
  | true =>
    rw [hc] at h
    exact ⟨(Except.error.inj h).symm, rfl⟩
  | false => simp [hc] at h

variable {s s' : Store} {b : DailyBar} {bs : List DailyBar} {e : StoreError}

/-! ## Rows -/

/-- The row of a symbol and a day. -/
def row? (s : Store) (symbol day : String) : Option DailyBar := (s.bars.get? symbol).bind (·.get? day)

/-- A bar that is written is a row in the bars of its symbol. -/
theorem putBar_eq_ok (h : s.putBar b = .ok s') : ∃ c, b.stored? = some c ∧
    s' = { s with bars := s.bars.insert b.symbol (((s.bars.get? b.symbol).getD .empty).insert b.day c) } := by
  unfold putBar at h
  split at h
  · rename_i c hc
    obtain ⟨hsymbol, hday⟩ := DailyBar.keys_stored? hc
    rw [hsymbol, hday] at h
    exact ⟨c, hc, (Except.ok.inj h).symm⟩
  · exact nomatch h

/-- A bar is not written only if it lacks a price. -/
theorem putBar_eq_error (h : s.putBar b = .error e) : e = .missingPrice ∧ ¬b.HasPrices := by
  unfold putBar at h
  split at h
  · exact nomatch h
  · rename_i hnone
    refine ⟨(Except.error.inj h).symm, fun hprices => ?_⟩
    rw [← DailyBar.isSome_stored?_iff, hnone] at hprices
    exact Bool.false_ne_true hprices

/-- A bar that is written has its prices. -/
theorem hasPrices_of_putBar (h : s.putBar b = .ok s') : b.HasPrices := by
  obtain ⟨c, hc, -⟩ := putBar_eq_ok h
  rw [← DailyBar.isSome_stored?_iff, hc]
  rfl

/-- A write changes the row of its symbol and its day. -/
theorem row?_putBar (h : s.putBar b = .ok s') (symbol day : String) :
    s'.row? symbol day = if symbol = b.symbol ∧ day = b.day then b.stored? else s.row? symbol day := by
  obtain ⟨c, hc, rfl⟩ := putBar_eq_ok h
  rw [row?, row?, Named.get?_insert, hc]
  by_cases hsymbol : symbol = b.symbol
  · subst hsymbol
    rw [if_pos rfl, Option.bind_some, Named.get?_insert]
    cases s.bars.get? b.symbol <;> simp
  · rw [if_neg hsymbol, if_neg fun hboth => hsymbol hboth.1]

/-- Of bars written one after another the last of a symbol and a day is its row. -/
theorem row?_foldlM_putBar (h : bs.foldlM putBar s = .ok s') (symbol day : String) : s'.row? symbol day =
    match DailyBar.lastOf bs symbol day with
    | some b => b.stored?
    | none => s.row? symbol day := by
  induction bs generalizing s with
  | nil =>
    obtain rfl := Except.ok.inj h
    rfl
  | cons b rest ih =>
    rw [List.foldlM_cons] at h
    obtain ⟨s₁, hb, hrest⟩ := bind_eq_ok h
    rw [ih hrest, DailyBar.lastOf_cons, row?_putBar hb]
    cases DailyBar.lastOf rest symbol day with
    | some last => rfl
    | none => by_cases hkey : symbol = b.symbol ∧ day = b.day <;> simp [hkey]

/-- Bars that are all written have their prices. -/
theorem hasPrices_of_foldlM_putBar (h : bs.foldlM putBar s = .ok s') : ∀ b ∈ bs, b.HasPrices := by
  induction bs generalizing s with
  | nil => exact List.forall_mem_nil _
  | cons b rest ih =>
    rw [List.foldlM_cons] at h
    obtain ⟨s₁, hb, hrest⟩ := bind_eq_ok h
    exact List.forall_mem_cons.2 ⟨hasPrices_of_putBar hb, ih hrest⟩

/-- Bars change the table of bars alone. -/
theorem eq_of_foldlM_putBar (h : bs.foldlM putBar s = .ok s') : s' = { s with bars := s'.bars } := by
  refine foldlM_inv (P := fun s' => s' = { s with bars := s'.bars }) (fun {s₁ s₂ b} hsame hb => ?_) rfl h
  obtain ⟨c, -, rfl⟩ := putBar_eq_ok hb
  rw [hsame]

end Store

/-! ## Writes taken back -/

@[simp] theorem Named.get?_restore {α : Type} (m : Named α) (name n : String) (before : Option α) :
    (m.restore name before).get? n = if n = name then before else m.get? n := by
  cases before <;> simp [restore]

/-- A map in which a name is given back what it had before is the map before. -/
theorem Named.restore_insert {α : Type} (m : Named α) (name : String) (v : α) :
    (m.insert name v).restore name (m.get? name) = m := by
  refine Named.ext_get? fun n => ?_
  rw [get?_restore, get?_insert]
  split
  · rename_i hn
    rw [hn]
  · rfl

namespace Transaction

variable {t t' : Transaction} {faults : Faults} {b : DailyBar} {bs : List DailyBar} {e : StoreError}

/-- A write that does not fail writes the bar, notes what it replaces and is counted. -/
theorem put_eq_ok (h : t.put faults b = .ok t') : faults.writes t.written = none ∧
    ∃ store, t.store.putBar b = .ok store ∧
      t' = ⟨store, (b.symbol, t.store.bars.get? b.symbol) :: t.replaced, t.written + 1⟩ := by
  unfold put at h
  cases hfault : faults.writes t.written with
  | some e =>
    rw [hfault] at h
    exact nomatch h
  | none =>
    rw [hfault] at h
    obtain ⟨store, hstore, h⟩ := bind_eq_ok h
    exact ⟨rfl, store, hstore, (Except.ok.inj h).symm⟩

/-- A write fails for a reason of its own, or because the bar lacks a price. -/
theorem put_eq_error (h : t.put faults b = .error e) : faults.writes t.written = some e ∨
    faults.writes t.written = none ∧ e = .missingPrice ∧ ¬b.HasPrices := by
  unfold put at h
  cases hfault : faults.writes t.written with
  | some e' =>
    rw [hfault] at h
    exact .inl (congrArg some (Except.error.inj h))
  | none =>
    rw [hfault] at h
    rcases bind_eq_error h with hb | ⟨store, -, h⟩
    · exact .inr ⟨rfl, Store.putBar_eq_error hb⟩
    · exact nomatch h

/-- One more bar that is written is taken back before the others. -/
theorem takenBack_put (h : t.put faults b = .ok t') : t'.takenBack = t.takenBack := by
  obtain ⟨-, store, hstore, rfl⟩ := put_eq_ok h
  obtain ⟨c, -, rfl⟩ := Store.putBar_eq_ok hstore
  rw [takenBack, takenBack, List.foldl_cons, Named.restore_insert]

/-- Whatever is written, and wherever the transaction ends, it is all taken back. -/
theorem takenBack_putAll (t : Transaction) (faults : Faults) (bs : List DailyBar) :
    (t.putAll faults bs).1.takenBack = t.takenBack := by
  induction bs generalizing t with
  | nil => rfl
  | cons b rest ih =>
    rw [putAll]
    split
    · rename_i t' hput
      rw [ih, takenBack_put hput]
    · rfl

/-- A transaction that comes to its end has written the bars one after another, and none of these writes has failed. -/
theorem putAll_eq_none (h : t.putAll faults bs = (t', none)) : bs.foldlM Store.putBar t.store = .ok t'.store ∧
    t'.written = t.written + bs.length ∧ ∀ i < bs.length, faults.writes (t.written + i) = none := by
  induction bs generalizing t with
  | nil =>
    obtain rfl := (Prod.mk.inj h).1
    exact ⟨rfl, rfl, fun i hi => absurd hi (Nat.not_lt_zero i)⟩
  | cons b rest ih =>
    rw [putAll] at h
    cases hput : t.put faults b with
    | error e =>
      rw [hput] at h
      exact nomatch h
    | ok next =>
      rw [hput] at h
      obtain ⟨hfault, store, hstore, rfl⟩ := put_eq_ok hput
      obtain ⟨hrest, hwritten, hfaults⟩ := ih h
      refine ⟨?_, ?_, fun i hi => ?_⟩
      · rw [List.foldlM_cons, hstore]
        exact hrest
      · rw [hwritten, List.length_cons, Nat.add_right_comm, Nat.add_assoc]
      · cases i with
        | zero => exact hfault
        | succ i =>
          have hnext := hfaults i (Nat.lt_of_succ_lt_succ hi)
          rwa [Nat.add_right_comm, Nat.add_assoc] at hnext

/-- A transaction that does not come to its end has written the bars before one whose write fails. -/
theorem putAll_eq_some (h : t.putAll faults bs = (t', some e)) : ∃ front b rest, bs = front ++ b :: rest ∧
    (∀ a ∈ front, a.HasPrices) ∧ (∀ i < front.length, faults.writes (t.written + i) = none) ∧
      (faults.writes (t.written + front.length) = some e ∨
        faults.writes (t.written + front.length) = none ∧ e = .missingPrice ∧ ¬b.HasPrices) := by
  induction bs generalizing t with
  | nil => exact nomatch h
  | cons b rest ih =>
    rw [putAll] at h
    cases hput : t.put faults b with
    | error e' =>
      rw [hput] at h
      obtain rfl := Option.some.inj (Prod.mk.inj h).2
      exact ⟨[], b, rest, rfl, List.forall_mem_nil _, fun i hi => absurd hi (Nat.not_lt_zero i), put_eq_error hput⟩
    | ok next =>
      rw [hput] at h
      obtain ⟨hfault, store, hstore, rfl⟩ := put_eq_ok hput
      obtain ⟨front, a, rest', rfl, hfront, hfaults, hend⟩ := ih h
      have hshift : ∀ i, t.written + 1 + i = t.written + (i + 1) := fun i => by omega
      simp only [hshift] at hfaults hend
      refine ⟨b :: front, a, rest', rfl, List.forall_mem_cons.2 ⟨Store.hasPrices_of_putBar hstore, hfront⟩, fun i hi => ?_, hend⟩
      cases i with
      | zero => exact hfault
      | succ i => exact hfaults i (Nat.lt_of_succ_lt_succ hi)

end Transaction

/-! ## Bars written all or none -/

/-- Neither the beginning fails nor one of the first writes, so many of them. -/
def Faults.SpareWrites (faults : Faults) (n : Nat) : Prop := faults.begins = none ∧ ∀ i < n, faults.writes i = none

namespace Store

variable {s s' : Store} {bs : List DailyBar} {faults : Faults} {e : StoreError}

/-- A store begins a transaction if it is open and that does not fail. -/
theorem beginTransaction_eq_ok {t : Transaction} (h : s.beginTransaction faults = .ok t) :
    s.isClosed = false ∧ faults.begins = none ∧ t = .on s := by
  obtain ⟨t', ht', h⟩ := bind_eq_ok h
  obtain ⟨hopen, rfl⟩ := answer_eq_ok ht'
  cases hfault : faults.begins with
  | some e =>
    rw [hfault] at h
    exact nomatch h
  | none =>
    rw [hfault] at h
    exact ⟨hopen, rfl, (Except.ok.inj h).symm⟩

theorem beginTransaction_eq_error (h : s.beginTransaction faults = .error e) :
    s.isClosed = true ∧ e = .closed ∨ s.isClosed = false ∧ faults.begins = some e := by
  rcases bind_eq_error h with hanswer | ⟨t, ht, h⟩
  · obtain ⟨rfl, hclosed⟩ := answer_eq_error hanswer
    exact .inl ⟨hclosed, rfl⟩
  · cases hfault : faults.begins with
    | some e' =>
      rw [hfault] at h
      exact .inr ⟨(answer_eq_ok ht).1, congrArg some (Except.error.inj h)⟩
    | none =>
      rw [hfault] at h
      exact nomatch h

/-- How bars come to an answer and to the store that is left: no transaction begins, a write fails, the writes cannot be
committed, or they are. -/
inductive Ended (s : Store) (bs : List DailyBar) (faults : Faults) : Except StoreError Nat × Store → Prop where
  | notBegun {e : StoreError} (hbegin : s.isClosed = true ∧ e = .closed ∨ s.isClosed = false ∧ faults.begins = some e) :
    Ended s bs faults (.error e, s)
  | broken {t : Transaction} {e : StoreError} (hopen : s.isClosed = false) (hbegins : faults.begins = none)
    (hall : (Transaction.on s).putAll faults bs = (t, some e)) : Ended s bs faults (.error e, s)
  | notCommitted {t : Transaction} {e : StoreError} (hopen : s.isClosed = false) (hbegins : faults.begins = none)
    (hall : (Transaction.on s).putAll faults bs = (t, none)) (hcommits : faults.commits = some e) :
    Ended s bs faults (.error e, s)
  | committed {t : Transaction} (hopen : s.isClosed = false) (hbegins : faults.begins = none)
    (hall : (Transaction.on s).putAll faults bs = (t, none)) (hcommits : faults.commits = none) :
    Ended s bs faults (.ok t.written, t.store)

/-- However it ends, what was written is committed or taken back. -/
theorem ended_upsertBars (s : Store) (bs : List DailyBar) (faults : Faults) : s.Ended bs faults (s.upsertBars bs faults) := by
  unfold upsertBars
  cases hbegin : s.beginTransaction faults with
  | error e => exact .notBegun (beginTransaction_eq_error hbegin)
  | ok t =>
    obtain ⟨hopen, hbegins, rfl⟩ := beginTransaction_eq_ok hbegin
    have hback : ((Transaction.on s).putAll faults bs).1.takenBack = s := Transaction.takenBack_putAll (.on s) faults bs
    rcases hall : (Transaction.on s).putAll faults bs with ⟨t, _ | e⟩ <;> rw [hall] at hback
    · cases hcommits : faults.commits with
      | none => simpa only [hall, hcommits] using Ended.committed hopen hbegins hall hcommits
      | some e => simpa only [hall, hcommits, hback] using Ended.notCommitted hopen hbegins hall hcommits
    · simpa only [hall, hback] using Ended.broken hopen hbegins hall

/-- Bars that are written are written one after another and counted, and no step has failed. -/
theorem upsertBars_eq_ok {n : Nat} (h : s.upsertBars bs faults = (.ok n, s')) : s.isClosed = false ∧ n = bs.length ∧
    bs.foldlM putBar s = .ok s' ∧ faults.SpareWrites bs.length ∧ faults.commits = none := by
  have hended := s.ended_upsertBars bs faults
  rw [h] at hended
  cases hended with
  | committed hopen hbegins hall hcommits =>
    obtain ⟨hwrites, hwritten, hfaults⟩ := Transaction.putAll_eq_none hall
    simp only [Transaction.on, Nat.zero_add] at hwritten hfaults
    exact ⟨hopen, hwritten, hwrites, ⟨hbegins, hfaults⟩, hcommits⟩

/-- Bars that are not written leave the store as it is, and one of its steps has failed: the store is closed, the beginning or the
end of the transaction fails, or a write does, after others that did not. -/
theorem upsertBars_eq_error (h : s.upsertBars bs faults = (.error e, s')) : s' = s ∧
    (s.isClosed = true ∧ e = .closed ∨
      s.isClosed = false ∧ (faults.begins = some e ∨
        (∃ front b rest, bs = front ++ b :: rest ∧ (∀ a ∈ front, a.HasPrices) ∧ faults.SpareWrites front.length ∧
          (faults.writes front.length = some e ∨
            faults.writes front.length = none ∧ e = .missingPrice ∧ ¬b.HasPrices)) ∨
        (∀ b ∈ bs, b.HasPrices) ∧ faults.SpareWrites bs.length ∧ faults.commits = some e)) := by
  have hended := s.ended_upsertBars bs faults
  rw [h] at hended
  cases hended with
  | notBegun hbegin => exact ⟨rfl, hbegin.imp id fun ⟨hopen, hfault⟩ => ⟨hopen, .inl hfault⟩⟩
  | broken hopen hbegins hall =>
    obtain ⟨front, b, rest, hsplit, hfront, hfaults, hend⟩ := Transaction.putAll_eq_some hall
    simp only [Transaction.on, Nat.zero_add] at hfaults hend
    exact ⟨rfl, .inr ⟨hopen, .inr (.inl ⟨front, b, rest, hsplit, hfront, ⟨hbegins, hfaults⟩, hend⟩)⟩⟩
  | notCommitted hopen hbegins hall hcommits =>
    obtain ⟨hwrites, -, hfaults⟩ := Transaction.putAll_eq_none hall
    simp only [Transaction.on, Nat.zero_add] at hfaults
    exact ⟨rfl, .inr ⟨hopen, .inr (.inr ⟨hasPrices_of_foldlM_putBar hwrites, ⟨hbegins, hfaults⟩, hcommits⟩)⟩⟩

/-- Bars are written to an open store if they can be written one after another. -/
theorem importBars_eq_ok (h : s.importBars bs = .ok s') : s.isClosed = false ∧ bs.foldlM putBar s = .ok s' := by
  rcases hall : s.upsertBars bs with ⟨_ | n, after⟩
  · simp only [importBars, hall] at h
    exact nomatch h
  · simp only [importBars, hall] at h
    obtain rfl := Except.ok.inj h
    obtain ⟨hopen, -, hwrites, -⟩ := upsertBars_eq_ok hall
    exact ⟨hopen, hwrites⟩

end Store
end EquityScreen
