import HotelPms.Basic

/- `nlohmann::json` values, and how the program reads them.

   Numbers are the integers the program writes. Reading a field of something
   that is not an object, or a value of another type, throws; reading a field
   that is not there fails an assertion of the library. -/
namespace HotelPms

inductive Json where
  | null
  | bool (b : Bool)
  | int (n : Int)
  | str (s : String)
  | arr (items : List Json)
  | obj (fields : List (String × Json))

instance : Inhabited Json := ⟨.null⟩

namespace Json

/-- `json[key]` on a constant value. -/
def field (json : Json) (key : String) : Except Fault Json :=
  match json with
  | .obj fields =>
    match fields.lookup key with
    | some value => .ok value
    | none => .error (.assertion "m_value.object->find(key) != m_value.object->end()")
  | _ => .error (.jsonTypeError "cannot use operator[] with a string argument")

/-- Conversion to `int`. -/
def toInt : Json → Except Fault Int
  | .int n => .ok n
  | .bool b => .ok (if b then 1 else 0)
  | _ => .error (.jsonTypeError "type must be number")

/-- Conversion to `std::string`. -/
def toStr : Json → Except Fault String
  | .str s => .ok s
  | _ => .error (.jsonTypeError "type must be string")

/-- Conversion to `std::vector<int>`. -/
def toInts : Json → Except Fault (List Int)
  | .arr items => items.mapM toInt
  | _ => .error (.jsonTypeError "type must be array")

/-- What a range-based `for` visits. -/
def elements : Json → List Json
  | .null => []
  | .arr items => items
  | .obj fields => fields.map (·.2)
  | json => [json]

@[simp] theorem field_obj (fields : List (String × Json)) (key : String) (value : Json)
    (h : fields.lookup key = some value) : (Json.obj fields).field key = .ok value := by
  simp only [field, h]

@[simp] theorem toInt_int (n : Int) : (Json.int n).toInt = .ok n := rfl

@[simp] theorem toStr_str (s : String) : (Json.str s).toStr = .ok s := rfl

@[simp] theorem elements_arr (items : List Json) : (Json.arr items).elements = items := rfl

@[simp] theorem toInts_ints (ns : List Int) :
    (Json.arr (ns.map Json.int)).toInts = .ok ns := by
  simp only [toInts]
  induction ns with
  | nil => rfl
  | cons n ns ih => simp only [List.map_cons, List.mapM_cons, toInt_int, ih]; rfl

end Json

end HotelPms
