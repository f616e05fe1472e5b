import UrlRouter.Extract.Scalar

namespace UrlRouter.Extract

namespace Field

def answersTo (f : Field σ ρ) (key : String) : Bool :=
  key == f.key || key ∈ f.aliases

end Field

namespace Record

def field? (r : Record σ ρ) (key : String) : Option (Field σ ρ) :=
  r.fields.find? (·.answersTo key)

def keys (r : Record σ ρ) : List String :=
  r.fields.map Field.key

/-- The readings of the entries, under the keys of their fields. With `settle` it is the reading which
is derived from a record's declaration; no part of it is written for one record. -/
def fill (read : σ → Value → Except Fault ρ) (r : Record σ ρ) (done : List (String × ρ)) :
    List (String × Value) → Except Fault (List (String × ρ))
  | [] => .ok done
  | (key, v) :: entries =>
    match r.field? key with
    | none =>
      if r.strict then .error (.unknownField key r.keys) else fill read r done entries
    | some f =>
      if (done.lookup f.key).isSome then .error (.duplicateField f.key)
      else
        match read f.shape v with
        | .error e => .error e
        | .ok x => fill read r ((f.key, x) :: done) entries

/-- The reading of one field, once all entries are read. -/
def settle (absent? : σ → Option ρ) (done : List (String × ρ)) (f : Field σ ρ) :
    Except Fault (String × ρ) :=
  match (done.lookup f.key).or (f.default.or (absent? f.shape)) with
  | some x => .ok (f.name, x)
  | none => .error (.missingField f.key)

/-- A field is missed only after every entry has been read, so an entry which cannot be read is
reported before a field which is not there. -/
def read (readItem : σ → Value → Except Fault ρ) (absent? : σ → Option ρ) (r : Record σ ρ)
    (entries : List (String × Value)) : Except Fault (List (String × ρ)) := do
  let done ← fill readItem r [] entries
  r.fields.mapM (settle absent? done)

end Record

/-- Inside buffered entries nothing is optional. -/
def Record.readAsIs (r : Record Plain Datum) (entries : List (String × Value)) :
    Except Fault (List (String × Datum)) :=
  r.read Plain.readAsIs (fun _ => none) entries

namespace Remainder

def read (rest : Remainder) (entries : List (String × Value)) : Except Fault Extracted :=
  match rest with
  | .map p => do
    let xs ← entries.mapM fun (key, v) => do return (key, Extracted.datum (← p.readAsIs v))
    return .map xs
  | .record r => do
    let xs ← r.readAsIs entries
    return .record (xs.map fun (name, d) => (name, .datum d))

end Remainder

def TaggedVariant.read (t : TaggedVariant) (entries : List (String × Value)) :
    Except Fault Extracted :=
  match t.fields with
  | none => .ok (.variant t.name .none)
  | some r => (r.readAsIs entries).map fun fs => .variant t.name (.fields fs)

/-- Why a variant did not fit is not told. -/
def readUntagged (name : String) (v : Value) : List (String × Plain) → Except Fault Extracted
  | [] => .error (.noVariantFits name)
  | (variant, p) :: variants =>
    match p.readAsIs v with
    | .ok d => .ok (.variant variant (.single d))
    | .error _ => readUntagged name v variants

/-- A zero byte marks the end of the bytes, so there is none among them. -/
def readBytes (s : String) : Except Fault Extracted :=
  let bs := s.toByteArray.toList
  match bs.idxOf? 0 with
  | some position => .error (.nulByte position)
  | none => .ok (.bytes bs)

namespace Shape

/-- What stands for a field without an entry. -/
def absent? : Shape → Option Extracted
  | .option _ => some .none
  | _ => none

/-- One value alone makes neither a record nor a map nor a sequence: these only say what they
expected instead. -/
def readValue : Shape → Value → Except Fault Extracted
  | .scalar s, v => s.read v
  | .unsupported name, _ => .error (.unsupported name)
  | .identifier, v => .ok (.value (.text v.display))
  | .anything, v => .ok (.value v)
  | .ignored, _ => .ok .ignored
  | .unit, v => .error (.invalidType (.ofValue v) "unit")
  | .marker name, v => .error (.invalidType (.ofValue v) ("unit struct " ++ name))
  | .bytes, .text s => readBytes s
  | .bytes, .int n => .error (.invalidType (.integer n) "byte array")
  | .sequence, v => .error (.invalidType (.ofValue v) "a sequence")
  | .tuple size, v => .error (.invalidType (.ofValue v) ("a tuple of size " ++ size.repr))
  | .namedTuple name, v => .error (.invalidType (.ofValue v) ("tuple struct " ++ name))
  | .option inner, v => (inner.readValue v).map .some
  | .newtype name inner, v => (inner.readValue v).map (.newtype name)
  | .map _, v | .take _, v => .error (.invalidType (.ofValue v) "a map")
  | .record r, v | .flattened r _ _, v => .error (.invalidType (.ofValue v) ("struct " ++ r.name))
  | .untagged name variants, v => readUntagged name v variants
  | .tagged name _ _, v => .error (.invalidType (.ofValue v) ("internally tagged enum " ++ name))

def readRecord (r : Record Shape Extracted) (entries : List (String × Value)) :
    Except Fault (List (String × Extracted)) :=
  r.read readValue absent? entries

/-- The rest is read only after the record's own fields are settled. -/
def readFlattened (own : Record Shape Extracted) (restName : String) (rest : Remainder)
    (entries : List (String × Value)) : Except Fault Extracted := do
  let fields ← readRecord own entries
  let others ← rest.read (entries.filter fun (key, _) => (own.field? key).isNone)
  return .record (fields ++ [(restName, others)])

def readTagged (tag : String) (variants : List TaggedVariant) (vs : Values) :
    Except Fault Extracted :=
  match vs.get? tag with
  | none => .error (.missingField tag)
  | some v =>
    match variants.find? (·.key == v.display) with
    | none => .error (.unknownVariant v.display (variants.map TaggedVariant.key))
    | some t => t.read (vs.entries.filter fun (key, _) => key != tag)

/-- A shape made of a whole mapping. Its entries are visited in the order of their keys. -/
def read : Shape → Values → Except Fault Extracted
  | .scalar s, _ => .error (.wrongTarget s.target)
  | .unsupported name, _ => .error (.unsupported name)
  | .identifier, _ => .error (.wrongTarget "identifier")
  | .anything, vs => .ok (.map (vs.entries.map fun (key, v) => (key, .value v)))
  | .ignored, _ => .ok .ignored
  | .unit, _ => .ok .unit
  | .marker name, _ => .ok (.marker name)
  | .bytes, _ => .error (.wrongTarget "bytes")
  | .sequence, _ => .error (.wrongTarget "sequence")
  | .tuple _, _ => .error (.wrongTarget "tuple")
  | .namedTuple _, _ => .error (.wrongTarget "tuple struct")
  | .option inner, vs => (inner.read vs).map .some
  | .newtype name inner, vs => (inner.read vs).map (.newtype name)
  | .map inner, vs => do
    let xs ← vs.entries.mapM fun (key, v) => do return (key, ← inner.readValue v)
    return .map xs
  | .take n, vs => if n < vs.size then .error (.entriesLeft vs.size n) else .ok (.taken vs.size)
  | .record r, vs => (readRecord r vs.entries).map .record
  | .flattened own restName rest, vs => readFlattened own restName rest vs.entries
  | .untagged name _, _ => .error (.noVariantFits name)
  | .tagged _ tag variants, vs => readTagged tag variants vs

end Shape

end UrlRouter.Extract

namespace UrlRouter

def Values.extract (vs : Values) (shape : Extract.Shape) :
    Except Extract.Fault Extract.Extracted :=
  shape.read vs

end UrlRouter
