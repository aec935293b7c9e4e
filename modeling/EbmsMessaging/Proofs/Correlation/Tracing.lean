import EbmsMessaging.Proofs.Correlation.Delivery

/-!
# Every value accounted for

In a labelled run each value carries the place of the move that brings it, so that two deposits of
one value stay apart. What the table stores and what tasks returned is then traced back to moves,
and every value that was brought is followed to its end.
-/
namespace EbmsMessaging.Correlation.WaitingRoom

open Table

variable {α : Type}

/-- Every value carries the place of the move that brings it. -/
def Labelled (moves : List (Move (Nat × α))) : Prop :=
  ∀ n key (b : Nat × α), moves[n]? = some (.deposit key b) → b.1 = n

theorem Labelled.of_append {moves : List (Move (Nat × α))} {m : Move (Nat × α)}
    (h : Labelled (moves ++ [m])) : Labelled moves := by
  intro n key b hn
  refine h n key b ?_
  rw [List.getElem?_append_left (List.getElem?_eq_some_iff.mp hn).1]
  exact hn

theorem Labelled.last {moves : List (Move (Nat × α))} {key : String} {b : Nat × α}
    (h : Labelled (moves ++ [.deposit key b])) : b.1 = moves.length :=
  h moves.length key b (by simp)

/-- The instant of a move. -/
def timeOf (p : Retention) (moves : List (Move α)) (n : Nat) : Nat := (after p (moves.take n)).now

/-- A value was brought under a key, at its time. -/
def Brought (p : Retention) (moves : List (Move (Nat × α))) (key : String)
    (d : Deposit (Nat × α)) : Prop :=
  moves[d.value.1]? = some (.deposit key d.value) ∧ d.time = timeOf p moves d.value.1

theorem Brought.lt {p : Retention} {moves : List (Move (Nat × α))} {key : String}
    {d : Deposit (Nat × α)} (h : Brought p moves key d) : d.value.1 < moves.length :=
  (List.getElem?_eq_some_iff.mp h.1).1

theorem Brought.append {p : Retention} {moves : List (Move (Nat × α))} {key : String}
    {d : Deposit (Nat × α)} (h : Brought p moves key d) (m : Move (Nat × α)) :
    Brought p (moves ++ [m]) key d := by
  obtain ⟨hmove, htime⟩ := h
  have hlt := (List.getElem?_eq_some_iff.mp hmove).1
  refine ⟨?_, ?_⟩
  · rw [List.getElem?_append_left hlt]
    exact hmove
  · rw [htime, timeOf, timeOf, List.take_append_of_le_length (Nat.le_of_lt hlt)]

theorem brought_last {p : Retention} {moves : List (Move (Nat × α))} {m : Move (Nat × α)}
    (hl : Labelled (moves ++ [m])) {key : String} {d : Deposit (Nat × α)}
    (h : (after p moves).brought? m = some (key, d)) :
    d.value.1 = moves.length ∧ Brought p (moves ++ [m]) key d := by
  cases m with
  | deposit key' b =>
    simp only [brought?, Option.some.injEq, Prod.mk.injEq] at h
    obtain ⟨rfl, rfl⟩ := h
    have hb := hl.last
    refine ⟨hb, ?_, ?_⟩
    · simp [hb]
    · simp [hb, timeOf]
  | _ => simp [brought?] at h

/-- The numbers of the values that tasks returned. -/
def returnedNumbers (w : WaitingRoom (Nat × α)) : List Nat := w.returned.map fun r => r.2.1

/-- What is stored and what was returned comes from moves, and nothing is there twice. -/
structure Traced (p : Retention) (moves : List (Move (Nat × α))) : Prop where
  stored : ∀ i key d, (after p moves).shared.table.Stores i key d → Brought p moves key d
  single : ∀ i j key key' d d', (after p moves).shared.table.Stores i key d →
    (after p moves).shared.table.Stores j key' d' → d.value.1 = d'.value.1 → i = j
  returned : ∀ r ∈ (after p moves).returned, ∃ key limit,
    moves[r.2.1]? = some (.deposit key r.2) ∧
    (started moves)[r.1]? = some (.fetching key limit)
  nodup : (after p moves).returnedNumbers.Nodup
  apart : ∀ i key d, (after p moves).shared.table.Stores i key d →
    d.value.1 ∉ (after p moves).returnedNumbers

namespace Traced

variable {p : Retention} {moves : List (Move (Nat × α))} {m : Move (Nat × α)}

theorem nil : Traced p ([] : List (Move (Nat × α))) := by
  have hempty (i : Nat) (key : String) (d : Deposit (Nat × α)) :
      ¬(after p []).shared.table.Stores i key d := by
    rintro ⟨c, hc, -⟩
    simp [start, Scheduler.start, Table.known, Table.empty] at hc
  refine ⟨fun i key d hd => absurd hd (hempty i key d),
    fun i _ key _ d _ hd => absurd hd (hempty i key d), ?_, List.nodup_nil,
    fun i key d hd => absurd hd (hempty i key d)⟩
  intro r hr
  simp [WaitingRoom.returned, start, Scheduler.start] at hr

theorem lt_of_stores (h : Traced p moves) {i : Nat} {key : String} {d : Deposit (Nat × α)}
    (hd : (after p moves).shared.table.Stores i key d) : d.value.1 < moves.length :=
  (h.stored i key d hd).lt

/-- A returned value stays traced. -/
theorem returned_append (h : Traced p moves) (m : Move (Nat × α)) :
    ∀ r ∈ (after p moves).returned, ∃ key limit,
      (moves ++ [m])[r.2.1]? = some (.deposit key r.2) ∧
      (started (moves ++ [m]))[r.1]? = some (.fetching key limit) := by
  intro r hr
  obtain ⟨key, limit, hmove, hstart⟩ := h.returned r hr
  refine ⟨key, limit, ?_, getElem?_started_of_prefix (List.prefix_append _ _) hstart⟩
  rw [List.getElem?_append_left (List.getElem?_eq_some_iff.mp hmove).1]
  exact hmove

/-- Nothing is returned and nothing is stored that was not stored before. -/
theorem append_stored (h : Traced p moves)
    (hreturned : ((after p moves).move m).returned = (after p moves).returned)
    (hstores : ∀ i key d, ((after p moves).move m).shared.table.Stores i key d →
      (after p moves).shared.table.Stores i key d) : Traced p (moves ++ [m]) := by
  constructor
  · rw [after_append]
    exact fun i key d hd => (h.stored i key d (hstores i key d hd)).append m
  · rw [after_append]
    exact fun i j key key' d d' hd hd' =>
      h.single i j key key' d d' (hstores i key d hd) (hstores j key' d' hd')
  · rw [after_append, hreturned]
    exact h.returned_append m
  · rw [after_append, returnedNumbers, hreturned]
    exact h.nodup
  · rw [after_append, returnedNumbers, hreturned]
    exact fun i key d hd => h.apart i key d (hstores i key d hd)

/-- A value is brought. -/
theorem append_brought (h : Traced p moves) (hl : Labelled (moves ++ [m]))
    {brought : String × Deposit (Nat × α)} (hb : (after p moves).brought? m = some brought)
    (hreturned : ((after p moves).move m).returned = (after p moves).returned)
    (hnext : ((after p moves).move m).shared.table.Succeeds (some brought)
      (after p moves).shared.table) : Traced p (moves ++ [m]) := by
  have hhosts := (orderly_after p (moves ++ [m])).hosts
  rw [after_append] at hhosts
  have hold {i : Nat} {key : String} {d : Deposit (Nat × α)}
      (hd : ((after p moves).move m).shared.table.Stores i key d) := hnext.stores hd
  have hlast {key : String} {d : Deposit (Nat × α)} (h : some brought = some (key, d)) :=
    brought_last hl (hb.trans h)
  constructor
  · rw [after_append]
    intro i key d hd
    rcases hold hd with hd | ⟨heq, -⟩
    · exact (h.stored i key d hd).append m
    · exact (hlast heq).2
  · rw [after_append]
    intro i j key key' d d' hd hd' hnum
    rcases hold hd with hd | ⟨heq, c, hc, hid, hkey⟩ <;>
      rcases hold hd' with hd' | ⟨heq', c', hc', hid', hkey'⟩
    · exact h.single i j key key' d d' hd hd' hnum
    · have hlt := h.lt_of_stores hd
      have := (hlast heq').1
      omega
    · have hlt := h.lt_of_stores hd'
      have := (hlast heq).1
      omega
    · rw [heq, Option.some.injEq, Prod.mk.injEq] at heq'
      rw [← hid, ← hid', hhosts.eq_of_key hc hc' (by rw [hkey, hkey', heq'.1])]
  · rw [after_append, hreturned]
    exact h.returned_append m
  · rw [after_append, returnedNumbers, hreturned]
    exact h.nodup
  · rw [after_append, returnedNumbers, hreturned]
    intro i key d hd hmem
    rcases hold hd with hd | ⟨heq, -⟩
    · exact h.apart i key d hd hmem
    · obtain ⟨r, hr, hnum⟩ := List.mem_map.mp hmem
      obtain ⟨key, limit, hmove, -⟩ := h.returned r hr
      have hlt := (List.getElem?_eq_some_iff.mp hmove).1
      have := (hlast heq).1
      omega

/-- A task returns a value. -/
theorem append_delivered (h : Traced p moves) {id : TaskId} {c : Cell (Nat × α)}
    {d : Deposit (Nat × α)}
    (hdel : Delivers (started moves) (after p moves) ((after p moves).move m) id c d)
    (hstores : ∀ i key d, ((after p moves).move m).shared.table.Stores i key d →
      (after p moves).shared.table.Stores i key d) : Traced p (moves ++ [m]) := by
  have hstored : (after p moves).shared.table.Stores c.id c.key d :=
    ⟨c, hdel.known, rfl, rfl, hdel.slot_eq⟩
  have hnumbers : ((after p moves).move m).returnedNumbers =
      (after p moves).returnedNumbers ++ [d.value.1] := by
    rw [returnedNumbers, hdel.returned_eq, List.map_append]
    rfl
  constructor
  · rw [after_append]
    exact fun i key d hd => (h.stored i key d (hstores i key d hd)).append m
  · rw [after_append]
    exact fun i j key key' d d' hd hd' =>
      h.single i j key key' d d' (hstores i key d hd) (hstores j key' d' hd')
  · rw [after_append, hdel.returned_eq]
    intro r hr
    rcases List.mem_append.mp hr with hr | hr
    · exact h.returned_append m r hr
    · obtain rfl := List.mem_singleton.mp hr
      obtain ⟨limit, horder⟩ := hdel.order
      exact ⟨c.key, limit, ((h.stored _ _ _ hstored).append m).1,
        getElem?_started_of_prefix (List.prefix_append _ _) horder⟩
  · rw [after_append, hnumbers]
    refine List.Nodup.append h.nodup (List.nodup_singleton _) ?_
    rw [List.disjoint_singleton]
    exact h.apart _ _ _ hstored
  · rw [after_append, hnumbers]
    intro i key d' hd' hmem
    rcases List.mem_append.mp hmem with hmem | hmem
    · exact h.apart i key d' (hstores i key d' hd') hmem
    · have hsame := h.single i c.id key c.key d' d (hstores i key d' hd') hstored
        (List.mem_singleton.mp hmem)
      obtain ⟨c', hc', hid, -, hslot⟩ := hd'
      rw [hdel.emptied.empty c' hc' (hid.trans hsame)] at hslot
      simp at hslot

end Traced

theorem traced (p : Retention) {moves : List (Move (Nat × α))} (hl : Labelled moves) :
    Traced p moves := by
  induction moves using List.reverseRecOn with
  | nil => exact .nil
  | append_singleton moves m ih =>
    have h := ih hl.of_append
    have hw := orderly_after p moves
    by_cases hs : ∃ asOf, (after p moves).SweepsAsOf m asOf
    · obtain ⟨asOf, hs⟩ := hs
      exact h.append_stored (returned_of_sweepsAsOf hs) fun i key d => (sweptFrom_move hs).stores
    have hnext := succeeds_move hw (not_exists.mp hs)
    cases hb : (after p moves).brought? m with
    | some brought =>
      rw [hb] at hnext
      refine h.append_brought hl hb ?_ hnext
      cases m with
      | deposit key a => exact (spares_deposit _ key a).returned_eq
      | _ => simp [brought?] at hb
    | none =>
      rw [hb] at hnext
      have hstores : ∀ i key d, ((after p moves).move m).shared.table.Stores i key d →
          (after p moves).shared.table.Stores i key d :=
        fun i key d hd => (hnext.stores hd).resolve_right (by simp)
      rcases delivers_or_spares_move hw (not_exists.mp hs) hb with ⟨id, c, d, hdel⟩ | hspares
      · exact h.append_delivered hdel hstores
      · exact h.append_stored hspares.returned_eq hstores

/-! ## The end of a value -/

/-- A value that nobody has fetched is replaced by a later one of its key. -/
def Overwrites (w : WaitingRoom α) (m : Move α) (key : String) (d : Deposit α) : Prop :=
  w.shared.table.valueAt? key = some d ∧ ∃ a, m = .deposit key a

/-- A sweep removes a value that nobody has fetched, for its age. -/
def Expires (w : WaitingRoom α) (m : Move α) (key : String) (d : Deposit α) : Prop :=
  w.shared.table.valueAt? key = some d ∧ (w.move m).shared.table.find? key = none ∧
    ∃ asOf, w.SweepsAsOf m asOf ∧ w.shared.table.retention.valueLimit < asOf - d.time

/-- What became of a value that was brought: a task returned it, it waits under its key, a later
value replaced it, or a sweep removed it. -/
inductive Fate (p : Retention) (moves : List (Move α)) (key : String) (d : Deposit α) : Prop where
  | returned (id : TaskId) (h : (id, d.value) ∈ (after p moves).returned)
  | waiting (h : (after p moves).shared.table.valueAt? key = some d)
  | overwritten (h : Occurs p moves fun w m => w.Overwrites m key d)
  | expired (h : Occurs p moves fun w m => w.Expires m key d)

/-- A sweep that removes the cell of a value does so for the age of the value. -/
theorem expires_of_sweepsAsOf {p : Retention} {moves : List (Move α)} {m : Move α} {asOf : Int}
    (hs : (after p moves).SweepsAsOf m asOf) {key : String} {d : Deposit α}
    (hd : (after p moves).shared.table.valueAt? key = some d)
    (hlost : ((after p moves).move m).shared.table.valueAt? key ≠ some d) :
    (after p moves).Expires m key d := by
  have hhosts := (orderly_after p moves).hosts
  have hnew := (orderly_after p (moves ++ [m])).hosts
  rw [after_append] at hnew
  have hswept := sweptFrom_move hs
  obtain ⟨c, hc, hkey, hslot⟩ := hhosts.valueAt?_eq_some_iff.mp hd
  have hgone : c ∉ ((after p moves).move m).shared.table.cells :=
    fun hmem => hlost (hnew.valueAt?_eq_some_iff.mpr ⟨c, hmem, hkey, hslot⟩)
  have hused (asOf : Int) : c.isUnused (after p moves).shared.table.retention asOf = false := by
    simp [Cell.isUnused, hslot]
  refine ⟨hd, ?_, asOf, hs, ?_⟩
  · rw [find?_eq_none]
    intro c' hc' hkey'
    have hold := ((hswept.mem_cells c').mp hc').1
    rw [hhosts.eq_of_key hold hc (hkey'.trans hkey.symm)] at hc'
    exact hgone hc'
  · have hx : c.isExpired (after p moves).shared.table.retention asOf = true := by
      by_contra hx
      exact hgone ((hswept.mem_cells c).mpr ⟨hc, by simpa using hx, hused asOf⟩)
    simp only [Cell.isExpired, hslot, Cell.age] at hx
    have hlt := of_decide_eq_true hx
    omega

/-- A value stays under its key when its cell is kept. -/
theorem valueAt?_of_keeps {p : Retention} {moves : List (Move α)} {m : Move α} {except : Option Nat}
    (hkeeps : Keeps except ((after p moves).move m).shared.table (after p moves).shared.table)
    {key : String} {d : Deposit α} {c : Cell α} (hc : c ∈ (after p moves).shared.table.cells)
    (hkey : c.key = key) (hslot : c.slot = some d) (hne : except ≠ some c.id) :
    ((after p moves).move m).shared.table.valueAt? key = some d := by
  have hnew := (orderly_after p (moves ++ [m])).hosts
  rw [after_append] at hnew
  obtain ⟨c', hc', -, hkey', hslot'⟩ := hkeeps c hc hne
  exact hnew.valueAt?_eq_some_iff.mpr ⟨c', hc', hkey'.trans hkey, hslot'.trans hslot⟩

/-- A value of one key does not touch the cell of another. -/
theorem withCell_id_ne {t : Table α} {crowd : Crowd} {queue : List TaskId}
    (h : t.Hosts crowd queue) (now : Nat) {key : String} {c : Cell α} (hc : c ∈ t.cells)
    (hne : c.key ≠ key) : (t.withCell now key).2.id ≠ c.id := by
  intro hid
  have hw := h.withCell now key
  obtain ⟨hmem, hkey⟩ := find?_eq_some (t.find?_withCell now key)
  have hc' : c ∈ (t.withCell now key).1.cells := by
    rcases t.withCell_cases now key with ⟨_, _, heq⟩ | ⟨_, heq⟩
    · rw [heq]
      exact hc
    · rw [heq]
      exact List.mem_append_left _ hc
  have hsame := hw.eq_of_id (mem_known_of_mem_cells hmem) (mem_known_of_mem_cells hc') hid
  rw [hsame] at hkey
  exact hne hkey

/-- A value that waits under its key goes on waiting or meets its end. -/
theorem fate_of_waiting {p : Retention} {moves : List (Move α)} {key : String} {d : Deposit α}
    (hd : (after p moves).shared.table.valueAt? key = some d) (m : Move α) :
    Fate p (moves ++ [m]) key d := by
  have hw := orderly_after p moves
  obtain ⟨c, hc, hkey, hslot⟩ := hw.hosts.valueAt?_eq_some_iff.mp hd
  have hstays {except : Option Nat}
      (hkeeps : Keeps except ((after p moves).move m).shared.table (after p moves).shared.table)
      (hne : except ≠ some c.id) : Fate p (moves ++ [m]) key d := by
    refine .waiting ?_
    rw [after_append]
    exact valueAt?_of_keeps hkeeps hc hkey hslot hne
  by_cases hs : ∃ asOf, (after p moves).SweepsAsOf m asOf
  · obtain ⟨asOf, hs⟩ := hs
    by_cases hlost : ((after p moves).move m).shared.table.valueAt? key = some d
    · exact .waiting (by rw [after_append]; exact hlost)
    · exact .expired (occurs_append.mpr (.inr (expires_of_sweepsAsOf hs hd hlost)))
  cases hb : (after p moves).brought? m with
  | some brought =>
    cases m with
    | deposit key' a =>
      by_cases hk : key' = key
      · subst hk
        exact .overwritten (occurs_append.mpr (.inr ⟨hd, a, rfl⟩))
      · refine hstays (spares_deposit _ key' a).keeps fun heq => ?_
        have hne : c.key ≠ key' := by
          rw [hkey]
          exact Ne.symm hk
        exact withCell_id_ne hw.hosts _ hc hne (Option.some.inj heq)
    | _ => simp [brought?] at hb
  | none =>
    rcases delivers_or_spares_move hw (not_exists.mp hs) hb with ⟨id, c', d', hdel⟩ | hspares
    · by_cases hid : c'.id = c.id
      · obtain rfl := hw.hosts.eq_of_id hdel.known (mem_known_of_mem_cells hc) hid
        obtain rfl : d = d' := Option.some.inj (hslot.symm.trans hdel.slot_eq)
        refine .returned id ?_
        rw [after_append, hdel.returned_eq]
        exact List.mem_append_right _ (List.mem_singleton_self _)
      · exact hstays hdel.emptied.keeps fun heq => hid (Option.some.inj heq)
    · exact hstays hspares.keeps (by simp)

theorem mem_returned_move {w : WaitingRoom α} {orders : List RoomTask} (hw : w.Orderly orders)
    {r : TaskId × α} (h : r ∈ w.returned) (m : Move α) : r ∈ (w.move m).returned := by
  by_cases hs : ∃ asOf, w.SweepsAsOf m asOf
  · obtain ⟨asOf, hs⟩ := hs
    rw [returned_of_sweepsAsOf hs]
    exact h
  cases hb : w.brought? m with
  | some brought =>
    cases m with
    | deposit key a =>
      rw [(spares_deposit w key a).returned_eq]
      exact h
    | _ => simp [brought?] at hb
  | none =>
    rcases delivers_or_spares_move hw (not_exists.mp hs) hb with ⟨id, c, d, hdel⟩ | hspares
    · rw [hdel.returned_eq]
      exact List.mem_append_left _ h
    · rw [hspares.returned_eq]
      exact h

theorem Fate.append {p : Retention} {moves : List (Move α)} {key : String} {d : Deposit α}
    (h : Fate p moves key d) (m : Move α) : Fate p (moves ++ [m]) key d := by
  cases h with
  | returned id h =>
    refine .returned id ?_
    rw [after_append]
    exact mem_returned_move (orderly_after p moves) h m
  | waiting h => exact fate_of_waiting h m
  | overwritten h => exact .overwritten (occurs_append.mpr (.inl h))
  | expired h => exact .expired (occurs_append.mpr (.inl h))

/-- A value that arrives waits under its key. -/
theorem valueAt?_deposit (p : Retention) (moves : List (Move α)) (key : String) (a : α) :
    (after p (moves ++ [.deposit key a])).shared.table.valueAt? key =
      some ⟨a, (after p moves).now⟩ := by
  have hhosts := (orderly_after p (moves ++ [.deposit key a])).hosts
  rw [hhosts.valueAt?_eq_some_iff, after_append, move, table_deposit, fst_deposit]
  obtain ⟨hmem, hkey⟩ := find?_eq_some
    ((after p moves).shared.table.find?_withCell (after p moves).now key)
  exact ⟨_, List.mem_map.mpr ⟨_, hmem, if_pos rfl⟩, hkey, rfl⟩

/-- Every value that was brought is accounted for. -/
theorem fate (p : Retention) (moves : List (Move α)) {n : Nat} {key : String} {a : α}
    (hn : moves[n]? = some (.deposit key a)) : Fate p moves key ⟨a, timeOf p moves n⟩ := by
  induction moves using List.reverseRecOn with
  | nil => simp at hn
  | append_singleton moves m ih =>
    rcases Nat.lt_or_ge n moves.length with hlt | hge
    · rw [List.getElem?_append_left hlt] at hn
      rw [timeOf, List.take_append_of_le_length (Nat.le_of_lt hlt)]
      exact (ih hn).append m
    · have hlen := (List.getElem?_eq_some_iff.mp hn).1
      rw [List.length_append, List.length_singleton] at hlen
      obtain rfl : n = moves.length := by omega
      obtain rfl : m = .deposit key a := by simpa using hn
      refine .waiting ?_
      rw [valueAt?_deposit, timeOf, List.take_left]

end EbmsMessaging.Correlation.WaitingRoom
