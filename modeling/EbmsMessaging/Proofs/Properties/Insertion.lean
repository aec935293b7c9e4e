import EbmsMessaging.Proofs.Properties
import Mathlib.Data.Finset.Card
import Mathlib.Data.Finset.Dedup

/-!
# Properties as an ordered map

However properties came about, collected from a list and then updated one by one, they are the ordered
map of all that was inserted: a name stands where it first came, with the property that came last
under it. One more insertion changes one place, or adds one behind the others.
-/
namespace EbmsMessaging.Properties

/-- A change of properties from outside. -/
inductive Update where
  | insert (p : Property)
  | set (name value : String)
deriving DecidableEq, Repr

/-- The property that an update brings. Setting a value leaves no type. -/
def Update.property : Update → Property
  | insert p => p
  | set name value => ⟨name, value, none⟩

def update (ps : Properties) : Update → Properties
  | .insert p => ps.insert p
  | .set name value => ps.set name value

theorem update_eq (ps : Properties) (u : Update) : ps.update u = ps.insert u.property := by
  cases u <;> rfl

/-- Updates go on with what was collected, as if their properties had been collected too. -/
theorem foldl_update (updates : List Update) (collected : List Property) :
    updates.foldl update (ofList collected) = ofList (collected ++ updates.map Update.property) := by
  rw [ofList, ofList, List.foldl_append, List.foldl_map]
  exact List.foldl_ext _ _ _ fun ps u _ => update_eq ps u

/-- What comes again is erased, what is new comes behind. -/
theorem eraseDups_concat (names : List String) (name : String) :
    (names ++ [name]).eraseDups =
      if name ∈ names then names.eraseDups else names.eraseDups ++ [name] := by
  rw [List.eraseDups_append, List.removeAll]
  split
  · next h => rw [List.filter_cons_of_neg (by simpa using h), List.filter_nil, List.eraseDups_nil,
      List.append_nil]
  · next h => rw [List.filter_cons_of_pos (by simpa using h), List.filter_nil,
      List.eraseDups_cons, List.filter_nil, List.eraseDups_nil]

/-- Names stand in the order in which they first came. -/
theorem names_ofList (ps : List Property) : (ofList ps).names = (ps.map (·.name)).eraseDups := by
  induction ps using List.reverseRecOn with
  | nil => rfl
  | append_singleton ps p ih =>
    rw [ofList_concat, names_insert, ih, List.map_append, List.map_singleton, eraseDups_concat]
    simp only [List.mem_eraseDups]

theorem mem_names_ofList {ps : List Property} {name : String} :
    name ∈ (ofList ps).names ↔ name ∈ ps.map (·.name) := by
  rw [names_ofList, List.mem_eraseDups]

theorem get?_eq_none_iff {ps : Properties} {name : String} :
    ps.get? name = none ↔ name ∉ ps.names := by
  simp [get?, names]

/-- Each of the distinct names is counted once. -/
theorem size_eq_card {ps : Properties} (h : ps.names.Nodup) : ps.size = ps.names.toFinset.card := by
  rw [List.toFinset_card_of_nodup h, names, List.length_map, size]

/-- The new property takes the place of the one before it. -/
theorem toList_insert_of_mem {ps : Properties} (hnodup : ps.names.Nodup) {p : Property}
    (h : p.name ∈ ps.names) :
    (ps.insert p).toList = ps.toList.map fun q => if q.name = p.name then p else q := by
  obtain ⟨ps⟩ := ps
  unfold names at h hnodup
  unfold insert
  dsimp only at h hnodup ⊢
  induction ps with
  | nil => exact absurd h List.not_mem_nil
  | cons q qs ih =>
    rw [List.map_cons, List.nodup_cons] at hnodup
    rw [Property.insertInto, List.map_cons]
    by_cases hq : q.name = p.name
    · -- None of the others has this name, so they stay.
      have hothers : ∀ r ∈ qs, r.name ≠ p.name := fun r hr heq =>
        hnodup.1 (hq ▸ heq ▸ List.mem_map_of_mem hr)
      have hsame : (qs.map fun r => if r.name = p.name then p else r) = qs := by
        conv_rhs => rw [← List.map_id qs]
        exact List.map_congr_left fun r hr => if_neg (hothers r hr)
      rw [if_pos hq, if_pos hq, hsame]
    · rw [if_neg hq, if_neg hq]
      exact congrArg _ (ih hnodup.2 ((List.mem_cons.mp h).resolve_left (Ne.symm hq)))

/-- Properties are the ordered map of what was inserted, from the first to the last. -/
structure MapOf (history : List Property) (ps : Properties) : Prop where
  nodup : ps.names.Nodup
  found : ∀ name, ps.get? name = (mk history).last? name
  absent : ∀ name, ps.get? name = none ↔ name ∉ history.map (·.name)
  order : ps.names = (history.map (·.name)).eraseDups
  size : ps.size = (history.map (·.name)).toFinset.card
  collected : ofList history = ps
  /-- They can be collected anew. -/
  again : ofList ps.toList = ps

theorem mapOf_ofList (history : List Property) : MapOf history (ofList history) where
  nodup := nodup_names_ofList history
  found := get?_ofList history
  absent name := by rw [get?_eq_none_iff, mem_names_ofList]
  order := names_ofList history
  size := by
    have hsame : (ofList history).names.toFinset = (history.map (·.name)).toFinset :=
      Finset.ext fun name => by simp only [List.mem_toFinset, mem_names_ofList]
    rw [size_eq_card (nodup_names_ofList history), hsame]
  collected := rfl
  again := (ofList_toList_eq_iff _).mpr (nodup_names_ofList history)

/-- What becomes of properties when one is inserted. -/
structure Inserts (ps : Properties) (p : Property) (ps' : Properties) : Prop where
  found : ps'.get? p.name = some p
  others : ∀ name, name ≠ p.name → ps'.get? name = ps.get? name
  replaced : p.name ∈ ps.names →
    ps'.toList = ps.toList.map fun q => if q.name = p.name then p else q
  added : p.name ∉ ps.names → ps'.toList = ps.toList ++ [p]

theorem inserts_insert {ps : Properties} (h : ps.names.Nodup) (p : Property) :
    Inserts ps p (ps.insert p) where
  found := get?_insert_self ps p
  others _ hne := get?_insert_of_ne ps (Ne.symm hne)
  replaced := toList_insert_of_mem h
  added := toList_insert_of_not_mem

/-- What was collected and then updated is the ordered map of all properties that came, and every
further update inserts its property into it. -/
theorem updated_properties_are_ordered_map (collected : List Property) (updates : List Update) :
    let ps := updates.foldl update (ofList collected)
    MapOf (collected ++ updates.map Update.property) ps ∧
      ∀ u : Update, Inserts ps u.property (ps.update u) := by
  intro ps
  have hps : ps = ofList (collected ++ updates.map Update.property) :=
    foldl_update updates collected
  have hmap : MapOf (collected ++ updates.map Update.property) ps := hps ▸ mapOf_ofList _
  refine ⟨hmap, fun u => ?_⟩
  rw [update_eq]
  exact inserts_insert hmap.nodup u.property

example : ([.set "a" "1", .insert ⟨"b", "2", some "t"⟩, .set "a" "3"].foldl update empty).toList =
    [⟨"a", "3", none⟩, ⟨"b", "2", some "t"⟩] := by decide

end EbmsMessaging.Properties
