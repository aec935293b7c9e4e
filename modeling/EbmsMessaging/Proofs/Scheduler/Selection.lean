import EbmsMessaging.Proofs.Scheduler
import Mathlib.Data.List.Nodup

/-!
# Some of many

Of the things that bear a number some are selected and numbered anew, without gaps. They keep their
order. What is called, dropped, replaced or sorted among all of them is so among the selected ones.
-/
namespace EbmsMessaging

/-! ## Numbers without gaps -/

/-- How many selected numbers there are below a number. -/
def rank (keep : Nat → Bool) (n : Nat) : Nat := (List.range n).countP keep

section Rank

variable {keep keep' : Nat → Bool} {m n : Nat}

theorem rank_succ (keep : Nat → Bool) (n : Nat) :
    rank keep (n + 1) = rank keep n + if keep n then 1 else 0 := by
  simp [rank, List.range_succ, List.countP_cons]

theorem rank_le (h : m ≤ n) : rank keep m ≤ rank keep n := by
  induction h with
  | refl => exact Nat.le_refl _
  | step _ ih =>
    rw [rank_succ]
    omega

theorem rank_lt (hm : keep m = true) (h : m < n) : rank keep m < rank keep n := by
  have hle : rank keep (m + 1) ≤ rank keep n := rank_le h
  rw [rank_succ, if_pos hm] at hle
  omega

theorem rank_inj (hm : keep m = true) (hn : keep n = true) : rank keep m = rank keep n ↔ m = n := by
  constructor
  · intro h
    rcases Nat.lt_trichotomy m n with hlt | heq | hgt
    · have := rank_lt hm hlt
      omega
    · exact heq
    · have := rank_lt hn hgt
      omega
  · rintro rfl
    rfl

/-- Which numbers are selected from `n` on does not matter for those below. -/
theorem rank_congr (h : ∀ i < n, keep i = keep' i) : rank keep n = rank keep' n :=
  List.countP_congr fun i hi => by rw [h i (List.mem_range.mp hi)]

end Rank

/-- The selected ones of some numbers, numbered anew. -/
def pick (keep : Nat → Bool) (ns : List Nat) : List Nat := (ns.filter keep).map (rank keep)

/-- The same of what has a number. -/
def pickWith {β γ : Type} (keep : Nat → Bool) (f : β → γ) (es : List (Nat × β)) : List (Nat × γ) :=
  (es.filter fun e => keep e.1).map fun e => (rank keep e.1, f e.2)

section Pick

variable {keep : Nat → Bool} {n : Nat} {ns ms : List Nat}

theorem pick_append : pick keep (ns ++ ms) = pick keep ns ++ pick keep ms := by
  simp [pick]

theorem pick_singleton_of_pos (hn : keep n = true) : pick keep [n] = [rank keep n] := by
  simp [pick, hn]

theorem pick_singleton_of_neg (hn : keep n = false) : pick keep [n] = [] := by
  simp [pick, hn]

theorem pick_eq_nil (h : ∀ i ∈ ns, keep i = false) : pick keep ns = [] := by
  rw [pick, List.map_eq_nil_iff, List.filter_eq_nil_iff]
  exact fun i hi => by simp [h i hi]

theorem mem_pick (hn : keep n = true) : rank keep n ∈ pick keep ns ↔ n ∈ ns := by
  rw [pick, List.mem_map]
  constructor
  · rintro ⟨m, hm, heq⟩
    obtain ⟨hmem, hm⟩ := List.mem_filter.mp hm
    exact (rank_inj hm hn).mp heq ▸ hmem
  · intro hmem
    exact ⟨n, List.mem_filter.mpr ⟨hmem, hn⟩, rfl⟩

theorem pick_cons_of_pos (hn : keep n = true) : pick keep (n :: ns) = rank keep n :: pick keep ns := by
  simp [pick, hn]

theorem pick_cons_of_neg (hn : keep n = false) : pick keep (n :: ns) = pick keep ns := by
  simp [pick, hn]

theorem pick_erase_of_pos (hn : keep n = true) :
    pick keep (ns.erase n) = (pick keep ns).erase (rank keep n) := by
  induction ns with
  | nil => rfl
  | cons m ns ih =>
    by_cases hm : m = n
    · subst hm
      rw [List.erase_cons_head, pick_cons_of_pos hn, List.erase_cons_head]
    · rw [List.erase_cons_tail (by simpa using hm)]
      cases hk : keep m with
      | true =>
        have hne : rank keep m ≠ rank keep n := fun h => hm ((rank_inj hk hn).mp h)
        rw [pick_cons_of_pos hk, pick_cons_of_pos hk, List.erase_cons_tail (by simpa using hne), ih]
      | false => rw [pick_cons_of_neg hk, pick_cons_of_neg hk, ih]

theorem pick_erase_of_neg (hn : keep n = false) : pick keep (ns.erase n) = pick keep ns := by
  induction ns with
  | nil => rfl
  | cons m ns ih =>
    by_cases hm : m = n
    · subst hm
      rw [List.erase_cons_head, pick_cons_of_neg hn]
    · rw [List.erase_cons_tail (by simpa using hm)]
      cases hk : keep m with
      | true => rw [pick_cons_of_pos hk, pick_cons_of_pos hk, ih]
      | false => rw [pick_cons_of_neg hk, pick_cons_of_neg hk, ih]

theorem pick_filter_of_pos (hn : keep n = true) :
    pick keep (ns.filter (· ≠ n)) = (pick keep ns).filter (· ≠ rank keep n) := by
  rw [pick, pick, List.filter_map, List.filter_filter, List.filter_filter]
  congr 1
  refine List.filter_congr fun m _ => ?_
  cases hk : keep m with
  | true => simp [rank_inj hk hn]
  | false => simp

theorem pick_filter_of_neg (hn : keep n = false) :
    pick keep (ns.filter (· ≠ n)) = pick keep ns := by
  rw [pick, pick, List.filter_filter]
  congr 1
  refine List.filter_congr fun m _ => ?_
  by_cases hm : m = n
  · simp [hm, hn]
  · simp [hm]

theorem pick_enqueue : pick keep (Scheduler.enqueue ns ms) =
    Scheduler.enqueue (pick keep ns) (pick keep ms) := by
  unfold Scheduler.enqueue
  induction ms generalizing ns with
  | nil => rfl
  | cons m ms ih =>
    rw [List.foldl_cons, ih]
    cases hk : keep m with
    | true =>
      rw [pick_cons_of_pos hk, List.foldl_cons]
      by_cases hmem : m ∈ ns
      · rw [if_pos hmem, if_pos ((mem_pick hk).mpr hmem)]
      · rw [if_neg hmem, if_neg (fun h => hmem ((mem_pick hk).mp h)), pick_append,
          pick_singleton_of_pos hk]
    | false =>
      rw [pick_cons_of_neg hk]
      by_cases hmem : m ∈ ns
      · rw [if_pos hmem]
      · rw [if_neg hmem, pick_append, pick_singleton_of_neg hk, List.append_nil]

end Pick

section PickWith

variable {β γ : Type} {keep : Nat → Bool} {f g : β → γ} {n : Nat} {b : β} {es es' : List (Nat × β)}

theorem pickWith_append : pickWith keep f (es ++ es') = pickWith keep f es ++ pickWith keep f es' := by
  simp [pickWith]

theorem pickWith_cons_of_pos (hn : keep n = true) :
    pickWith keep f ((n, b) :: es) = (rank keep n, f b) :: pickWith keep f es := by
  simp [pickWith, hn]

theorem pickWith_cons_of_neg (hn : keep n = false) :
    pickWith keep f ((n, b) :: es) = pickWith keep f es := by
  simp [pickWith, hn]

theorem map_fst_pickWith (keep : Nat → Bool) (f : β → γ) (es : List (Nat × β)) :
    (pickWith keep f es).map Prod.fst = pick keep (es.map Prod.fst) := by
  simp [pickWith, pick, List.filter_map, Function.comp_def]

theorem pickWith_congr (h : ∀ e ∈ es, keep e.1 = true → f e.2 = g e.2) :
    pickWith keep f es = pickWith keep g es := by
  refine List.map_congr_left fun e he => ?_
  obtain ⟨he, hk⟩ := List.mem_filter.mp he
  rw [h e he hk]

theorem lookup_pickWith (hn : keep n = true) :
    (pickWith keep f es).lookup (rank keep n) = (es.lookup n).map f := by
  induction es with
  | nil => rfl
  | cons e es ih =>
    obtain ⟨m, b⟩ := e
    rw [List.lookup_cons]
    cases hk : keep m with
    | true =>
      rw [pickWith_cons_of_pos hk, List.lookup_cons]
      by_cases hm : n = m
      · subst hm
        simp
      · have hne : rank keep n ≠ rank keep m := fun h => hm ((rank_inj hn hk).mp h)
        rw [beq_false_of_ne hne, beq_false_of_ne hm]
        exact ih
    | false =>
      have hm : n ≠ m := by
        rintro rfl
        simp [hn] at hk
      rw [pickWith_cons_of_neg hk, beq_false_of_ne hm]
      exact ih

theorem pickWith_filter_of_pos (hn : keep n = true) :
    pickWith keep f (es.filter fun e => e.1 ≠ n) =
      (pickWith keep f es).filter fun e => e.1 ≠ rank keep n := by
  rw [pickWith, pickWith, List.filter_map, List.filter_filter, List.filter_filter]
  congr 1
  refine List.filter_congr fun e _ => ?_
  cases hk : keep e.1 with
  | true => simp [rank_inj hk hn]
  | false => simp

theorem pickWith_filter_of_neg (hn : keep n = false) :
    pickWith keep f (es.filter fun e => e.1 ≠ n) = pickWith keep f es := by
  rw [pickWith, pickWith, List.filter_filter]
  congr 1
  refine List.filter_congr fun e _ => ?_
  by_cases he : e.1 = n
  · simp [he, hn]
  · simp [he]

theorem pickWith_replaced_of_pos (hn : keep n = true) :
    pickWith keep f (es.map fun e => if e.1 = n then (n, b) else e) =
      (pickWith keep f es).map fun e => if e.1 = rank keep n then (rank keep n, f b) else e := by
  induction es with
  | nil => rfl
  | cons e es ih =>
    obtain ⟨m, b'⟩ := e
    rw [List.map_cons]
    by_cases hm : m = n
    · subst hm
      rw [if_pos rfl, pickWith_cons_of_pos hn, pickWith_cons_of_pos hn, List.map_cons, if_pos rfl,
        ih]
    · rw [if_neg hm]
      cases hk : keep m with
      | true =>
        have hne : rank keep m ≠ rank keep n := fun h => hm ((rank_inj hk hn).mp h)
        rw [pickWith_cons_of_pos hk, pickWith_cons_of_pos hk, List.map_cons, if_neg hne, ih]
      | false => rw [pickWith_cons_of_neg hk, pickWith_cons_of_neg hk, ih]

theorem pickWith_replaced_of_neg (hn : keep n = false) :
    pickWith keep f (es.map fun e => if e.1 = n then (n, b) else e) = pickWith keep f es := by
  induction es with
  | nil => rfl
  | cons e es ih =>
    obtain ⟨m, b'⟩ := e
    rw [List.map_cons]
    by_cases hm : m = n
    · subst hm
      rw [if_pos rfl, pickWith_cons_of_neg hn, pickWith_cons_of_neg hn, ih]
    · rw [if_neg hm]
      cases hk : keep m with
      | true => rw [pickWith_cons_of_pos hk, pickWith_cons_of_pos hk, ih]
      | false => rw [pickWith_cons_of_neg hk, pickWith_cons_of_neg hk, ih]

end PickWith

/-! ## All selected -/

theorem rank_all (n : Nat) : rank (fun _ => true) n = n := by simp [rank]

theorem pick_all (ns : List Nat) : pick (fun _ => true) ns = ns := by
  have hrank : rank (fun _ => true) = id := funext rank_all
  simp [pick, hrank]

theorem pickWith_all {β γ : Type} (f : β → γ) (es : List (Nat × β)) :
    pickWith (fun _ => true) f es = es.map fun e => (e.1, f e.2) := by
  simp [pickWith, rank_all]

/-! ## Sorting what is selected -/

/-- A list is cut where a condition first fails in only one way. -/
theorem append_inj_of_forall {β : Type} {p : β → Bool} {xs ys xs' ys' : List β}
    (h : xs ++ ys = xs' ++ ys') (hx : ∀ b ∈ xs, p b) (hy : ∀ b ∈ ys, ¬p b) (hx' : ∀ b ∈ xs', p b)
    (hy' : ∀ b ∈ ys', ¬p b) : xs = xs' ∧ ys = ys' := by
  have hcut : ∀ {zs ws : List β}, (∀ b ∈ zs, p b) → (∀ b ∈ ws, ¬p b) →
      (zs ++ ws).takeWhile p = zs := by
    intro zs ws hz hw
    rw [List.takeWhile_append_of_pos hz]
    cases ws with
    | nil => simp
    | cons w ws => rw [List.takeWhile_cons_of_neg (hw w List.mem_cons_self), List.append_nil]
  have hxs : xs = xs' := by rw [← hcut hx hy, h, hcut hx' hy']
  subst hxs
  exact ⟨rfl, List.append_cancel_left h⟩

/-- Sorting keeps equal things in their order, so leaving some out before or after comes to the
same. -/
theorem filter_mergeSort {β : Type} {le : β → β → Bool}
    (htrans : ∀ a b c, le a b → le b c → le a c) (htotal : ∀ a b, le a b || le b a)
    (p : β → Bool) (xs : List β) : (xs.mergeSort le).filter p = (xs.filter p).mergeSort le := by
  induction xs with
  | nil => simp
  | cons x xs ih =>
    obtain ⟨front, back, hsorted, hrest, hfront⟩ := List.mergeSort_cons htrans htotal x xs
    rw [hrest, List.filter_append] at ih
    rw [hsorted, List.filter_append]
    cases hp : p x with
    | false => rw [List.filter_cons_of_neg (by simp [hp]), List.filter_cons_of_neg (by simp [hp]), ih]
    | true =>
      obtain ⟨front', back', hsorted', hrest', hfront'⟩ :=
        List.mergeSort_cons htrans htotal x (xs.filter p)
      have hback : ∀ b ∈ back, le x b := by
        have hpairwise := List.pairwise_mergeSort htrans htotal (x :: xs)
        rw [hsorted, List.pairwise_append, List.pairwise_cons] at hpairwise
        exact hpairwise.2.1.1
      have hback' : ∀ b ∈ back', le x b := by
        have hpairwise := List.pairwise_mergeSort htrans htotal (x :: xs.filter p)
        rw [hsorted', List.pairwise_append, List.pairwise_cons] at hpairwise
        exact hpairwise.2.1.1
      have hcut := append_inj_of_forall (p := fun b => !le x b) (ih.trans hrest')
        (fun b hb => hfront b (List.mem_of_mem_filter hb))
        (fun b hb => by simp [hback b (List.mem_of_mem_filter hb)]) hfront'
        (fun b hb => by simp [hback' b hb])
      rw [List.filter_cons_of_pos hp, List.filter_cons_of_pos hp, hsorted', hcut.1, hcut.2]

end EbmsMessaging
