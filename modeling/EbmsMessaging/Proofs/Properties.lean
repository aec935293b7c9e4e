import EbmsMessaging.Properties
import Mathlib.Data.List.Induction
import Mathlib.Data.List.Nodup

/-!
# Names of properties

Inserting leaves the names distinct, in the order in which they first came, and the property that was
inserted last under a name is the one that is found. So a list of properties is found again in what is
collected from it exactly if no name comes twice.
-/
namespace EbmsMessaging.Properties

/-- The names of the properties, in their order. -/
def names (ps : Properties) : List String := ps.toList.map (·.name)

/-- A new name comes behind the others; an old one stays where it is. -/
theorem names_insert (ps : Properties) (p : Property) :
    (ps.insert p).names = if p.name ∈ ps.names then ps.names else ps.names ++ [p.name] := by
  unfold names insert
  induction ps.toList with
  | nil => simp [Property.insertInto]
  | cons q qs ih =>
    rw [Property.insertInto, List.map_cons]
    by_cases hq : q.name = p.name
    · rw [if_pos hq, if_pos (by simp [hq]), List.map_cons, hq]
    · rw [if_neg hq, List.map_cons, ih]
      have hmem : p.name ∈ q.name :: qs.map (·.name) ↔ p.name ∈ qs.map (·.name) := by
        simp [Ne.symm hq]
      simp only [hmem]
      split <;> rfl

/-- Under a new name a property comes behind the others. -/
theorem toList_insert_of_not_mem {ps : Properties} {p : Property} (h : p.name ∉ ps.names) :
    (ps.insert p).toList = ps.toList ++ [p] := by
  obtain ⟨ps⟩ := ps
  unfold names at h
  unfold insert
  dsimp only at h ⊢
  induction ps with
  | nil => rfl
  | cons q qs ih =>
    rw [List.map_cons, List.mem_cons, not_or] at h
    rw [Property.insertInto, if_neg (Ne.symm h.1)]
    exact congrArg _ (ih h.2)

theorem get?_insert (ps : Properties) (p : Property) (name : String) :
    (ps.insert p).get? name = if p.name = name then some p else ps.get? name := by
  split
  · next h => exact h ▸ get?_insert_self ps p
  · next h => exact get?_insert_of_ne ps h

theorem ofList_concat (ps : List Property) (p : Property) :
    ofList (ps ++ [p]) = (ofList ps).insert p := by
  rw [ofList, List.foldl_append]
  rfl

/-- The property that comes last under a name. -/
def last? (ps : Properties) (name : String) : Option Property :=
  ps.toList.reverse.find? fun p => p.name = name

/-- Of what is collected the last property of a name is found. -/
theorem get?_ofList (ps : List Property) (name : String) :
    (ofList ps).get? name = (mk ps).last? name := by
  unfold last?
  dsimp only
  induction ps using List.reverseRecOn with
  | nil => rfl
  | append_singleton ps p ih =>
    rw [ofList_concat, get?_insert, ih, List.reverse_append, List.reverse_singleton,
      List.singleton_append, List.find?_cons]
    by_cases h : p.name = name <;> simp [h]

/-! ## Distinct names -/

theorem nodup_names_insert {ps : Properties} (h : ps.names.Nodup) (p : Property) :
    (ps.insert p).names.Nodup := by
  rw [names_insert]
  split
  · exact h
  · next hnew =>
    refine List.nodup_append.mpr ⟨h, List.nodup_singleton _, ?_⟩
    rintro name hname _ hlast rfl
    exact hnew (List.mem_singleton.mp hlast ▸ hname)

theorem nodup_names_set {ps : Properties} (h : ps.names.Nodup) (name value : String) :
    (ps.set name value).names.Nodup := nodup_names_insert h _

theorem nodup_names_setIfSome {ps : Properties} (h : ps.names.Nodup) (name : String)
    (value : Option String) : (ps.setIfSome name value).names.Nodup := by
  cases value with
  | none => exact h
  | some value => exact nodup_names_set h name value

theorem nodup_names_empty : empty.names.Nodup := List.nodup_nil

/-- What is collected has distinct names, whatever it is collected from. -/
theorem nodup_names_ofList (ps : List Property) : (ofList ps).names.Nodup := by
  induction ps using List.reverseRecOn with
  | nil => exact nodup_names_empty
  | append_singleton ps p ih =>
    rw [ofList_concat]
    exact nodup_names_insert ih p

/-- Collecting properties anew changes nothing exactly if no name comes twice. -/
theorem ofList_toList_eq_iff (ps : Properties) : ofList ps.toList = ps ↔ ps.names.Nodup := by
  refine ⟨fun h => h ▸ nodup_names_ofList ps.toList, fun h => ?_⟩
  obtain ⟨ps⟩ := ps
  induction ps using List.reverseRecOn with
  | nil => rfl
  | append_singleton ps p ih =>
    simp only [names, List.map_append, List.map_cons, List.map_nil] at h ih
    obtain ⟨hps, -, hdisjoint⟩ := List.nodup_append.mp h
    have hnew : p.name ∉ (Properties.mk ps).names := fun hmem =>
      hdisjoint p.name hmem p.name (List.mem_singleton_self _) rfl
    have hlist := toList_insert_of_not_mem hnew
    rw [ofList_concat, ih hps]
    exact congrArg Properties.mk hlist

end EbmsMessaging.Properties
