import EbmsMessaging.Schema

/-!
# Properties

A property is a named text with an optional type. Properties are kept in the order in which their
names first came; inserting under a name that is there already replaces the property in its place.
-/
namespace EbmsMessaging

structure Property where
  name : String
  value : String
  type : Option String
deriving DecidableEq, Repr

structure Properties where
  toList : List Property
deriving DecidableEq, Repr

namespace Property

/-- A property without a type. -/
def plain (name value : String) : Property := ⟨name, value, none⟩

def typed (name value type : String) : Property := ⟨name, value, some type⟩

/-- Puts a property in the place of the first one of its name, or behind all others. -/
def insertInto (p : Property) : List Property → List Property
  | [] => [p]
  | q :: qs => if q.name = p.name then p :: qs else q :: insertInto p qs

instance : Schematic Property where
  shape := .record <| .cons "Name" .required .text <| .cons "Value" .required .text <|
    .cons "Type" .optional .text .nil
  ofValue := fun (name, value, type, _) => ⟨name, value, type⟩
  toValue p := (p.name, p.value, p.type, ())
  ofValue_toValue _ := rfl

end Property

namespace Properties

def empty : Properties := ⟨[]⟩

def insert (ps : Properties) (p : Property) : Properties := ⟨p.insertInto ps.toList⟩

/-- Inserts a property without a type. -/
def set (ps : Properties) (name value : String) : Properties := ps.insert (.plain name value)

/-- Sets a property if there is a value for it. -/
def setIfSome (ps : Properties) (name : String) (value : Option String) : Properties :=
  value.elim ps (ps.set name)

/-- Inserts properties one after the other. -/
def ofList (ps : List Property) : Properties := ps.foldl insert empty

def get? (ps : Properties) (name : String) : Option Property :=
  ps.toList.find? fun p => p.name = name

def value? (ps : Properties) (name : String) : Option String := (ps.get? name).map (·.value)

def size (ps : Properties) : Nat := ps.toList.length

def isEmpty (ps : Properties) : Bool := ps.toList.isEmpty

instance : Schematic Properties where
  shape := Schematic.listOf Property
  ofValue vs := ⟨Schematic.ofValues vs⟩
  toValue ps := Schematic.toValues ps.toList
  ofValue_toValue _ := by simp

theorem get?_insert_self (ps : Properties) (p : Property) :
    (ps.insert p).get? p.name = some p := by
  unfold get? insert
  induction ps.toList with
  | nil => simp [Property.insertInto]
  | cons q qs ih => by_cases h : q.name = p.name <;> simp_all [Property.insertInto]

theorem get?_insert_of_ne (ps : Properties) {p : Property} {name : String} (h : p.name ≠ name) :
    (ps.insert p).get? name = ps.get? name := by
  unfold get? insert
  induction ps.toList with
  | nil => simp [Property.insertInto, h]
  | cons q qs ih =>
    by_cases hq : q.name = p.name
    · simp [Property.insertInto, hq, h]
    · by_cases hn : q.name = name <;> simp_all [Property.insertInto]

theorem get?_set_of_ne (ps : Properties) {name other : String} (value : String)
    (h : name ≠ other) : (ps.set name value).get? other = ps.get? other :=
  get?_insert_of_ne ps h

theorem get?_setIfSome_of_ne (ps : Properties) {name other : String} (value : Option String)
    (h : name ≠ other) : (ps.setIfSome name value).get? other = ps.get? other := by
  cases value with
  | none => rfl
  | some value => exact get?_set_of_ne ps value h

end Properties
end EbmsMessaging
