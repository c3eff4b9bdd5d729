import PointQuery.Json.Value
/-!
# JSON records

A record is read from an object, whose members may come in any order and among members that are not
looked at, or from a list of its fields in their order. Fields that are not required may be left
out.
-/

namespace PointQuery.Json

/-- A field of a record whose fields are collected in a `σ`. -/
structure Field (σ : Type) where
  name : String
  /-- Reads the value and collects it. -/
  read : σ → Reader σ
  /-- Whether the value has been collected. -/
  isSet : σ → Bool
  required : Bool

namespace Record

variable {σ : Type}

/-- The field with this name. -/
def field? (fields : List (Field σ)) (name : String) : Option (Field σ) :=
  fields.find? (·.name == name)

/-- Reads a key, its colon and its value. A field may stand only once. -/
def member (fields : List (Field σ)) (collected : σ) : Reader σ := fun cs => do
  let (name, rest) ← string cs
  match field? fields name with
  | some field =>
    if field.isSet collected then throw .mismatch
    let rest ← colon rest
    field.read collected rest
  | none =>
    let rest ← colon rest
    let rest ← skipValue rest
    return (collected, rest)

/-- Reads the members of an object up to its closing brace, from where a member or the brace may
stand. The first argument bounds the number of members; `first` tells that none has been read. -/
def members (fields : List (Field σ)) : Nat → Bool → σ → Reader σ
  | 0, _, _, _ => .error .truncated
  | fuel + 1, first, collected, cs =>
    match skipBlanks cs with
    | '}' :: cs =>
      if fields.all fun f => !f.required || f.isSet collected then .ok (collected, cs)
      else .error .mismatch
    | [] => .error .truncated
    | cs => do
      let cs ←
        if first then pure cs
        else
          match cs with
          | ',' :: cs =>
            match skipBlanks cs with
            | [] => throw .truncated
            | cs => pure cs
          | _ => throw .malformed
      let .cons '"' _ := cs | throw .malformed
      let (collected, rest) ← member fields collected cs
      members fields fuel false collected rest

/-- Reads the closing bracket of a list whose fields have all been read. -/
def listEnd (collected : σ) : Reader σ := fun cs =>
  match skipBlanks cs with
  | ']' :: cs => .ok (collected, cs)
  | [] => .error .truncated
  | _ => .error .malformed

/-- Reads the fields that are left from a list. A list that ends early leaves out the rest. -/
def elements : List (Field σ) → Bool → σ → Reader σ
  | [], _, collected, cs => listEnd collected cs
  | field :: fields, first, collected, cs =>
    match skipBlanks cs with
    | ']' :: cs =>
      if (field :: fields).all fun f => !f.required then .ok (collected, cs) else .error .mismatch
    | [] => .error .truncated
    | cs => do
      let cs ←
        if first then pure cs
        else
          match cs with
          | ',' :: cs =>
            match skipBlanks cs with
            | ']' :: _ => throw .malformed
            | [] => throw .truncated
            | cs => pure cs
          | _ => throw .malformed
      let (collected, rest) ← field.read collected cs
      elements fields false collected rest

/-- Reads a record. -/
def read (fields : List (Field σ)) (empty : σ) : Reader σ := fun cs =>
  match skipBlanks cs with
  | '{' :: cs => members fields (cs.length + 1) true empty cs
  | '[' :: cs => elements fields true empty cs
  | cs => .error (wrongShape cs)

end Record

end PointQuery.Json
