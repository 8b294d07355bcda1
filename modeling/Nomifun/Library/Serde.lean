import Nomifun.Library.Json
import Nomifun.Library.StringMap

/-!
# Derived JSON codecs

The data model behind `#[derive(Serialize, Deserialize)]` with a JSON back end. A struct
is written as an object with its fields in declaration order. It is read from an object
in any order, each field at most once, undeclared fields being refused or skipped; or
from an array in declaration order, where only fields with a default may be missing at
the end. A unit variant is read from its name or from an object that maps its name to
null. An internally tagged enum is an object with the name of the variant among its
fields, or an array with the name first.

`Codec.RoundTrips` is the notion the combinators preserve; for a struct it reduces to
the round trips of the fields (`structEntries_declared`).
-/
namespace Nomifun.Library.Serde
open Library.MachineInt Library.Json List

inductive DecodeError where
  | invalidType
  | invalidValue
  | invalidLength
  | unknownField (name : String)
  | duplicateField (name : String)
  | missingField (name : String)
  | unknownVariant (name : String)
  | custom (message : String)

structure Codec (α : Type) where
  encode : α → Value
  decode : Value → Except DecodeError α

variable {α : Type} {entries : List (String × Value)} {c : Codec α} {a : α}

abbrev Codec.RoundTrips (c : Codec α) (a : α) : Prop := c.decode (c.encode a) = .ok a

/-- An unsigned integer with the largest value `bound`. -/
def unsigned (bound : Nat) : Codec Nat where
  encode n := .number (.posInt n)
  decode
    | .number (.posInt n) => if n ≤ bound then .ok n else .error .invalidValue
    | .number (.negInt _) => .error .invalidValue
    | _ => .error .invalidType

/-- A signed integer of the range `-(bound + 1) .. bound`. -/
def signed (bound : Nat) : Codec Int where
  encode := Value.int
  decode
    | .number (.posInt n) => if n ≤ bound then .ok (.ofNat n) else .error .invalidValue
    | .number (.negInt n) => if n ≤ bound then .ok (.negSucc n) else .error .invalidValue
    | _ => .error .invalidType

def byte : Codec UInt8 where
  encode b := (unsigned u8Max).encode b.toNat
  decode v := ((unsigned u8Max).decode v).map UInt8.ofNat

def boolean : Codec Bool where
  encode b := .bool b
  decode
    | .bool b => .ok b
    | _ => .error .invalidType

def text : Codec String where
  encode s := .string s
  decode
    | .string s => .ok s
    | _ => .error .invalidType

def list (c : Codec α) : Codec (List α) where
  encode items := .array (items.map c.encode)
  decode
    | .array items => items.mapM c.decode
    | _ => .error .invalidType

/-- A field-less enumeration, given by the names of its variants. -/
def unitVariants [DecidableEq α] (names : List (String × α)) (nameOf : α → String) : Codec α where
  encode a := .string (nameOf a)
  decode
    | .string name => variant name
    | .object [(name, payload)] =>
      match variant name, payload with
      | .ok a, .null => .ok a
      | .ok _, _ => .error .invalidType
      | .error e, _ => .error e
    | .object _ => .error .invalidValue
    | _ => .error .invalidType
where
  variant (name : String) : Except DecodeError α :=
    match names.lookup name with
    | some a => .ok a
    | none => .error (.unknownVariant name)

/-- What reading a struct needs to know about one of its fields. -/
structure FieldSpec where
  name : String
  check : Value → Except DecodeError Unit
  defaulted : Bool

structure StructSpec where
  fields : List FieldSpec
  denyUnknown : Bool

variable {specs : List FieldSpec} {spec : StructSpec}

def Codec.field (c : Codec α) (name : String) : FieldSpec where
  name := name
  check v := (c.decode v).map fun _ => ()
  defaulted := false

/-- A field with `#[serde(default)]`. -/
def Codec.defaultedField (c : Codec α) (name : String) : FieldSpec :=
  { c.field name with defaulted := true }

/-- Entries are taken in order; the first offending one decides the error. -/
def visitMap (spec : StructSpec) (seen : List String) :
    List (String × Value) → Except DecodeError Unit
  | [] => .ok ()
  | (name, v) :: rest =>
    match spec.fields.find? (·.name = name) with
    | none =>
      if spec.denyUnknown then .error (.unknownField name) else visitMap spec seen rest
    | some field =>
      if name ∈ seen then .error (.duplicateField name)
      else
        match field.check v with
        | .error e => .error e
        | .ok () => visitMap spec (name :: seen) rest

/-- The entries of a value read as a struct, named also when it is an array. -/
def structEntries (spec : StructSpec) : Value → Except DecodeError (List (String × Value))
  | .object entries => (visitMap spec [] entries).map fun _ => entries
  | .array items =>
    let entries := (spec.fields.map (·.name)).zip items
    match visitMap spec [] entries with
    | .error e => .error e
    | .ok () =>
      if items.length ≤ spec.fields.length &&
          (spec.fields.drop items.length).all (·.defaulted) then .ok entries
      else .error .invalidLength
  | _ => .error .invalidType

/-- The variant of an internally tagged enum and what is left for its fields. -/
def tagged (tag : String) : Value → Except DecodeError (String × Value)
  | .object entries =>
    match entries.lookup tag with
    | none => .error (.missingField tag)
    | some (.string name) => .ok (name, .object (entries.filter (·.1 ≠ tag)))
    | some _ => .error .invalidType
  | .array [] => .error (.missingField tag)
  | .array (.string name :: rest) => .ok (name, .array rest)
  | _ => .error .invalidType

def required (entries : List (String × Value)) (name : String) (c : Codec α) :
    Except DecodeError α :=
  match entries.lookup name with
  | none => .error (.missingField name)
  | some v => c.decode v

/-- A field that may be missing, with the value it then has. -/
def requiredOr (entries : List (String × Value)) (name : String) (c : Codec α) (default : α) :
    Except DecodeError α :=
  match entries.lookup name with
  | none => .ok default
  | some v => c.decode v

/-- `Option<T>`: null is none. -/
def nullable (c : Codec α) : Codec (Option α) where
  encode
    | none => .null
    | some a => c.encode a
  decode
    | .null => .ok none
    | v => (c.decode v).map some

/-- A field of type `Value`. -/
def verbatim : Codec Value where
  encode v := v
  decode v := .ok (collected v)

/-- `BTreeMap<String, T>`. -/
def stringMap (c : Codec α) : Codec (StringMap α) where
  encode m := .object (m.toList.map fun entry => (entry.1, c.encode entry.2))
  decode
    | .object entries => entries.foldlM (fun m entry => do
        return m.insert entry.1 (← c.decode entry.2)) ∅
    | _ => .error .invalidType

theorem unsigned_roundTrips (h : n ≤ bound) : (unsigned bound).RoundTrips n := by
  simp [Codec.RoundTrips, unsigned, h]

theorem byte_roundTrips (b : UInt8) : byte.RoundTrips b := by
  have small : b.toNat ≤ u8Max := Nat.le_of_lt_succ b.toNat_lt
  simp [Codec.RoundTrips, byte, unsigned, small, Except.map]

theorem boolean_roundTrips (b : Bool) : boolean.RoundTrips b := rfl

theorem text_roundTrips (s : String) : text.RoundTrips s := rfl

theorem list_roundTrips (h : ∀ a ∈ items, c.RoundTrips a) : (list c).RoundTrips items := by
  simp only [Codec.RoundTrips, list]
  induction items with
  | nil => rfl
  | cons a items ih =>
    have head : c.decode (c.encode a) = .ok a := h a mem_cons_self
    have tail := ih fun b member => h b (mem_cons_of_mem a member)
    simp only [map_cons, mapM_cons, head, tail]
    rfl

theorem unitVariants_roundTrips [DecidableEq α] (h : names.lookup (nameOf a) = some a) :
    (unitVariants names nameOf).RoundTrips a := by
  simp [Codec.RoundTrips, unitVariants, unitVariants.variant, h]

theorem field_check (h : c.RoundTrips a) (name : String) :
    (c.field name).check (c.encode a) = .ok () := by
  have decoded : c.decode (c.encode a) = .ok a := h
  simp [Codec.field, decoded, Except.map]

/-- The entry was written for the field. -/
def Declares (spec : FieldSpec) (entry : String × Value) : Prop :=
  spec.name = entry.1 ∧ spec.check entry.2 = .ok ()

theorem declares_defaultedField (h : c.RoundTrips a) (name : String) :
    Declares (c.defaultedField name) (name, c.encode a) :=
  ⟨rfl, field_check h name⟩

/-- A field that reads back, in front of the fields after it. -/
theorem Codec.RoundTrips.field (h : c.RoundTrips a) (name : String)
    (rest : List.Forall₂ Declares specs entries) :
    List.Forall₂ Declares (c.field name :: specs) ((name, c.encode a) :: entries) :=
  .cons ⟨rfl, field_check h name⟩ rest

theorem find_field (distinct : (specs.map (·.name)).Nodup) {spec : FieldSpec}
    (member : spec ∈ specs) : specs.find? (·.name = spec.name) = some spec := by
  induction specs with
  | nil => cases member
  | cons first rest ih =>
    rw [map_cons, nodup_cons] at distinct
    rcases mem_cons.mp member with rfl | later
    · simp
    · have other : first.name ≠ spec.name := by
        intro same
        exact distinct.1 (same ▸ mem_map_of_mem later)
      rw [find?_cons_of_neg (by simpa using other), ih distinct.2 later]

theorem visitMap_declared (distinct : (spec.fields.map (·.name)).Nodup)
    (entries : List (String × Value)) (seen : List String)
    (fresh : ∀ entry ∈ entries, entry.1 ∉ seen) (once : (entries.map Prod.fst).Nodup)
    (declared : ∀ entry ∈ entries, ∃ field ∈ spec.fields, Declares field entry) :
    visitMap spec seen entries = .ok () := by
  induction entries generalizing seen with
  | nil => rfl
  | cons entry rest ih =>
    obtain ⟨name, v⟩ := entry
    rw [map_cons, nodup_cons] at once
    obtain ⟨field, member, named, checks⟩ := declared _ mem_cons_self
    have found : spec.fields.find? (·.name = name) = some field := by
      have own := find_field distinct member
      rwa [named] at own
    have unseen : name ∉ seen := fresh _ mem_cons_self
    simp only [visitMap, found, if_neg unseen, checks]
    refine ih (name :: seen) ?_ once.2 fun entry later => declared _ (mem_cons_of_mem _ later)
    intro entry later
    rw [mem_cons, not_or]
    refine ⟨?_, fresh _ (mem_cons_of_mem _ later)⟩
    intro same
    exact once.1 (mem_map.mpr ⟨entry, later, same⟩)

theorem declared_names (declared : List.Forall₂ Declares specs entries) :
    entries.map Prod.fst = specs.map (·.name) := by
  induction declared with
  | nil => rfl
  | cons head _ ih => simp [head.1, ih]

theorem declared_each (declared : List.Forall₂ Declares specs entries) :
    ∀ entry ∈ entries, ∃ spec ∈ specs, Declares spec entry := by
  induction declared with
  | nil => simp
  | cons head _ ih =>
    intro entry member
    rcases mem_cons.mp member with rfl | later
    · exact ⟨_, mem_cons_self, head⟩
    · obtain ⟨spec, found, declares⟩ := ih entry later
      exact ⟨spec, mem_cons_of_mem _ found, declares⟩

/-- Reading a struct from an object with entries for some of its fields, in any order. -/
theorem structEntries_written (spec : StructSpec) (distinct : (spec.fields.map (·.name)).Nodup)
    (once : (fields.map (·.name)).Nodup) (declared : List.Forall₂ Declares fields entries)
    (within : ∀ field ∈ fields, field ∈ spec.fields) :
    structEntries spec (.object entries) = .ok entries := by
  have named : (entries.map Prod.fst).Nodup := by rwa [declared_names declared]
  have visited := visitMap_declared distinct entries [] (by simp) named fun entry member => by
    obtain ⟨field, listed, declares⟩ := declared_each declared entry member
    exact ⟨field, within field listed, declares⟩
  simp [structEntries, visited, Except.map]

/-- Reading a struct from an object that has its fields in declaration order. -/
theorem structEntries_declared (spec : StructSpec) (distinct : (spec.fields.map (·.name)).Nodup)
    (declared : List.Forall₂ Declares spec.fields entries) :
    structEntries spec (.object entries) = .ok entries :=
  structEntries_written spec distinct distinct declared fun _ member => member

end Nomifun.Library.Serde
