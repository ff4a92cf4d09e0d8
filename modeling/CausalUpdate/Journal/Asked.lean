import CausalUpdate.Journal.Value

/-!
# Members of values

A value is asked for a member of its kind by name.  Parts are computed, and an operation stays tied
to the value that it was asked of.  A kind is asked for its own parts first, as these are what its
name and its place among the kinds are, then for what it offers its values, and last for what all
kinds offer.  A narrowed kind tells what it was narrowed from and by; anything else is asked of the
kind itself.

* `FieldValue.part` — a part of a value.
* `FieldValue.ask` — a member of a value.
-/

namespace CausalUpdate

open CausalUpdate.Text

namespace FieldValue

/-! ## Parts -/

def partOfKind (k : Kind) (name : String) : Except FieldError FieldValue :=
  let d := k.description
  match name with
  | "__name__" | "__qualname__" => .ok (data (.str k.ownName))
  | "__module__" => .ok (data (.str k.home))
  | "__base__" => .ok ((k.parent?.map kind).getD (data .null))
  | "__bases__" => .ok (row (k.parent?.toList.map kind))
  | "__mro__" => .ok (row (k.ancestry.map kind))
  | "__dict__" => .ok (members k)
  | "__doc__" =>
    match d.about, k.own? name with
    | none, some m => .ok (ofMember k m)
    | about, _ => .ok (ofText? about)
  | "__text_signature__" => .ok (ofText? d.signature)
  | "__basicsize__" => .ok (data (.int d.sizes.value))
  | "__itemsize__" => .ok (data (.int d.sizes.item))
  | "__flags__" => .ok (data (.int d.sizes.flags))
  | "__dictoffset__" => .ok (data (.int d.sizes.members))
  | "__weakrefoffset__" => .ok (data (.int d.sizes.links))
  | "__abstractmethods__" => .error (.unset name)
  | _ => .error (.noMemberOfKind k.name name)

/-- What a narrowed kind is asked for itself; it is not asked for anything else. -/
def narrowedNames : List String :=
  ["__class__", "__origin__", "__args__", "__unpacked__", "__parameters__",
   "__typing_unpacked_tuple_args__", "__mro_entries__", "__reduce_ex__", "__reduce__", "__copy__",
   "__deepcopy__"]

/-- A part of a narrowed kind: none of them is a placeholder, and none is unpacked. -/
def partOfNarrowed (k : Kind) (key : Json) (name : String) : Except FieldError FieldValue :=
  match name with
  | "__origin__" => .ok (kind k)
  | "__args__" => .ok (row [data key])
  | "__parameters__" => .ok (row [])
  | "__unpacked__" => .ok (data (.bool false))
  | "__typing_unpacked_tuple_args__" => .ok (data .null)
  | _ => .error (.noMember Kind.narrowed.name name)

/-- A part of a member, of which `outer` is the kind in whose terms it is called. -/
def partOfMember (owner outer : Kind) (m : Member) (sort : Kind) (name : String) :
    Except FieldError FieldValue :=
  match name with
  | "__objclass__" => .ok (kind owner)
  | "__name__" => .ok (data (.str m.name))
  | "__qualname__" => .ok (data (.str (outer.ownName ++ "." ++ m.name)))
  | "__doc__" => .ok (ofText? m.about)
  | "__text_signature__" => .ok (ofText? m.signature)
  | "__module__" => .ok (data .null)
  | "__func__" | "__wrapped__" => .ok (bound owner m (kind owner))
  | "__isabstractmethod__" => .ok (data (.bool false))
  | "__dict__" => .ok (data (.obj []))
  | _ => .error (.noMember sort.name name)

/-- The kind in whose terms an operation of a value is called. -/
def outerKind (owner : Kind) (m : Member) (holder : FieldValue) : Kind :=
  if m.sort = .sign then owner
  else
    match holder with
    | kind k => k
    | v => v.kindOf

def part (v : FieldValue) (name : String) : Except FieldError FieldValue :=
  match v, name with
  | v, "__class__" => .ok (kind v.kindOf)
  | data (.decimal x), "real" => .ok (data (.decimal x))
  | data (.decimal _), "imag" => .ok (data (.decimal 0))
  | data (.int n), "real" | data (.int n), "numerator" => .ok (data (.int n))
  | data (.bool b), "real" | data (.bool b), "numerator" => .ok (data (.int b.toInt))
  | data (.int _), "imag" | data (.bool _), "imag" => .ok (data (.int 0))
  | data (.int _), "denominator" | data (.bool _), "denominator" => .ok (data (.int 1))
  | kind k, name => partOfKind k name
  | narrowed k key, name => partOfNarrowed k key name
  | offered owner m, name => partOfMember owner owner m v.kindOf name
  | bound _ m holder, "__self__" => .ok (if m.sort = .free then data .null else holder)
  | bound owner m holder, name => partOfMember owner (outerKind owner m holder) m v.kindOf name
  | v, name => .error (.noMember v.kindName name)

/-! ## Members -/

/-- What a member of its kind is for a value. -/
def given (v : FieldValue) (owner : Kind) (m : Member) : Except FieldError FieldValue :=
  match m.sort with
  | .method | .sign => .ok (bound owner m v)
  | .shared => .ok (bound owner m (kind v.kindOf))
  | .free => .ok (bound owner m (kind owner))
  | .part | .field => v.part m.name
  | .maker | .about | .refused => .ok (ofMember owner m)

/-- A member of a value, whatever the value is. -/
def askValue (v : FieldValue) (name : String) : Except FieldError FieldValue :=
  match v.kindOf.find? name with
  | some (owner, m) => v.given owner m
  | none => .error (.noMember v.kindName name)

/-- What a member that a kind offers its values is for the kind. -/
def givenByKind (k owner : Kind) (m : Member) : FieldValue :=
  match m.sort with
  | .shared => bound owner m (kind k)
  | .free => bound owner m (kind owner)
  | _ => ofMember owner m

def askKind (k : Kind) (name : String) : Except FieldError FieldValue :=
  let ofKinds := Kind.kind.find? name
  if ofKinds.any fun (_, m) => m.sort = .part ∨ m.sort = .field then (kind k).part name
  else
    match k.find? name, ofKinds with
    | some (owner, m), _ => .ok (givenByKind k owner m)
    | none, some (owner, m) => (kind k).given owner m
    | none, none => .error (.noMemberOfKind k.name name)

def ask (v : FieldValue) (name : String) : Except FieldError FieldValue :=
  match v with
  | kind k => askKind k name
  | narrowed k _ => if narrowedNames.contains name then v.askValue name else askKind k name
  | v => v.askValue name

end FieldValue

end CausalUpdate
