import ControlLoop.Binary64.Basic
import ControlLoop.Json.Fields

/-!
# JSON values

A value is a leaf, a finite sequence of values or a set of fields. Sequences and
fields are held as functions, so a value has one form only: fields have no
order of their own and no key twice, and recursion over a value is recursion
over its children.

Two relations compare values. Equality `=` is identity. The test `==` is
equality of what they denote: it differs from identity only in that the two
zeros of a double are one number. An integer never equals a double.
-/

set_option autoImplicit false

namespace ControlLoop

/-- A number is an integer or a finite double, as it was written. -/
inductive Number where
  | integer (n : Int)
  | double (x : Binary64.Finite)
deriving DecidableEq

/-- Equality of numbers of one kind. -/
protected def Number.beq : Number → Number → Bool
  | .integer m, .integer n => m == n
  | .double x, .double y => x.beq y
  | _, _ => false

instance : BEq Number := ⟨Number.beq⟩

/-- The number as a double, rounded if it is an integer. -/
def Number.toBinary64 : Number → Binary64
  | .integer n => .ofInt n
  | .double x => .finite x

/-- A JSON value. -/
inductive Json where
  | null
  | bool (b : Bool)
  | num (n : Number)
  | str (s : String)
  | arr (size : Nat) (item : Fin size → Json)
  | obj (keys : KeySet) (value : {k // k ∈ keys} → Json)

namespace Json

instance : Inhabited Json := ⟨.null⟩

/-- The array of the listed items. -/
def array (items : List Json) : Json :=
  let row := items.toArray
  .arr row.size fun i => row[i]

/-- The object with the given fields. -/
def object (fs : Fields Json) : Json := .obj fs.keys fs.value

/-- The object of the listed fields, of which the last with a key counts. -/
def objectOfList (l : List (String × Json)) : Json := object (.ofList l)

/-- The object without fields. -/
def emptyObject : Json := object .empty

/-- The fields of a value. Only an object has any. -/
def fields : Json → Fields Json
  | .obj keys value => ⟨keys, value⟩
  | _ => .empty

/-- The items of a value in order. Only an array has any. -/
def items : Json → List Json
  | .arr _ item => List.ofFn item
  | _ => []

/-- The fields, if the value is an object. -/
def asObject? : Json → Option (Fields Json)
  | .obj keys value => some ⟨keys, value⟩
  | _ => none

/-- The text, if the value is a string. -/
def asString? : Json → Option String
  | .str s => some s
  | _ => none

/-- Whether the value is null. -/
def isNull : Json → Bool
  | .null => true
  | _ => false

/-- Whether the value is an object. -/
def isObject : Json → Bool
  | .obj .. => true
  | _ => false

@[simp] theorem fields_object (fs : Fields Json) : (object fs).fields = fs := rfl

@[simp] theorem object_inj {a b : Fields Json} : object a = object b ↔ a = b :=
  ⟨fun h => congrArg fields h, fun h => h ▸ rfl⟩

/-- The value at a path of keys. -/
def get? (value : Json) : List String → Option Json
  | [] => some value
  | k :: ks => (value.fields.get? k).bind fun child => child.get? ks

@[simp] theorem get?_nil (value : Json) : value.get? [] = some value := rfl

theorem get?_cons (value : Json) (k : String) (ks : List String) :
    value.get? (k :: ks) = (value.fields.get? k).bind fun child => child.get? ks := rfl

/-- Whether two values are built alike from leaves, where `same` compares numbers. -/
def alike (same : Number → Number → Bool) : Json → Json → Bool
  | .null, .null => true
  | .bool a, .bool b => a == b
  | .num a, .num b => same a b
  | .str a, .str b => a == b
  | .arr m f, .arr n g =>
    if h : m = n then (List.finRange m).all fun i => (f i).alike same (g (i.cast h)) else false
  | .obj ks f, .obj js g =>
    if h : ks = js then ks.members.all fun k => (f k).alike same (g ⟨k.1, h ▸ k.2⟩) else false
  | _, _ => false

/-- Equality of what two values denote. -/
instance : BEq Json := ⟨alike Number.beq⟩

/-- Values that are alike with identical numbers are identical. -/
theorem alike_iff_eq {a b : Json} : a.alike (fun m n => decide (m = n)) b = true ↔ a = b := by
  induction a generalizing b with
  | null => cases b <;> simp [alike]
  | bool x => cases b <;> simp [alike]
  | num x => cases b <;> simp [alike]
  | str x => cases b <;> simp [alike]
  | arr m f ih =>
    cases b with
    | arr n g =>
      by_cases h : m = n
      · subst h
        simp only [alike, ↓reduceDIte, List.all_eq_true, List.mem_finRange, true_implies, ih]
        exact ⟨fun hv => congrArg _ (funext hv),
          fun heq i => by injection heq with _ hf; rw [hf]; rfl⟩
      · simp [alike, h]
    | _ => simp [alike]
  | obj ks f ih =>
    cases b with
    | obj js g =>
      by_cases h : ks = js
      · subst h
        simp only [alike, ↓reduceDIte, List.all_eq_true, KeySet.mem_members, true_implies, ih]
        exact ⟨fun hv => congrArg _ (funext hv), fun heq k => by injection heq with _ hf; rw [hf]⟩
      · simp [alike, h]
    | _ => simp [alike]

instance : DecidableEq Json := fun _ _ => decidable_of_iff _ alike_iff_eq

end Json

end ControlLoop
