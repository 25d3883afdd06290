import PreferenceAccessors.Checked
import PreferenceAccessors.JavaLiteral

/-!
Preference declarations. A default belongs to one kind, so a declaration cannot
hold a default of another kind; a float default is narrowed, an int and a long
have 32 and 64 bits. A key is never empty and never garbled.

A declaration is read from a mapping. Its kind is looked at first, and its
default is judged only when there is a kind to judge it by.
-/

namespace PreferenceAccessors

structure SourceField where
  owner : String
  name : String
deriving DecidableEq, Repr

namespace SourceField

def text (s : SourceField) : String :=
  s.owner ++ "#" ++ s.name

def check (v : Value) : Checked SourceField := do
  let entries ← Checked.entriesOf .sourceField v
  (Checked.both
    (Checked.required entries "owner" Checked.text)
    (Checked.required entries "name" Checked.text)).map fun (owner, name) => ⟨owner, name⟩

end SourceField

inductive Default
  | boolean (value : Bool)
  | float (value : Binary)
  | int (value : Int32)
  | long (value : Int64)
  | string (value : String)
deriving DecidableEq

namespace Default

def kind : Default → Kind
  | boolean _ => .boolean
  | float _ => .float
  | int _ => .int
  | long _ => .long
  | string _ => .string

def toValue : Default → Value
  | boolean b => .bool b
  | float x => .float x
  | int i => .int i.toInt
  | long i => .int i.toInt
  | string s => .text s

def zeroOf : Kind → Default
  | .boolean => boolean false
  | .float => float (.finite false 0)
  | .int => int 0
  | .long => long 0
  | .string => string ""

theorem kind_zeroOf (k : Kind) : (zeroOf k).kind = k := by
  cases k <;> rfl

def literal : Default → String
  | boolean b => if b then "true" else "false"
  | float x => FloatLiteral.write x.narrow
  | int i => toString i.toInt
  | long i => toString i.toInt ++ "L"
  | string s => JavaString.literal s

theorem literal_toValue (d : Default) : d.kind.literal d.toValue = .ok d.literal := by
  cases d with
  | boolean b => rfl
  | float x => rfl
  | int i =>
    have hlow := i.le_toInt
    have hhigh := i.toInt_lt
    exact Kind.literal_int_of_lt (by omega)
  | long i =>
    have hlow := i.le_toInt
    have hhigh := i.toInt_lt
    exact Kind.literal_long_of_lt (by omega)
  | string s => rfl

def refusal (kind : Kind) (v : Value) : Cause :=
  if v.isShown then .badDefault v.repr kind else .defaultNotShown

def check (kind : Kind) (v : Value) : Checked Default :=
  let refused := Checked.refuse (refusal kind v)
  match kind, v with
  | .boolean, .bool b => .ok (boolean b)
  | .float, .float x => .ok (float x.narrow)
  | .float, .int i => match Binary.ofInt? i with
    | some x => .ok (float x.narrow)
    | none => Checked.refuse .floatOutOfRange
  | .int, .int i =>
    if -0x80000000 ≤ i ∧ i < 0x80000000 then .ok (int (Int32.ofInt i)) else refused
  | .long, .int i =>
    if -0x8000000000000000 ≤ i ∧ i < 0x8000000000000000 then .ok (long (Int64.ofInt i)) else refused
  | .string, .text s => .ok (string s)
  | .string, .garbled s => .ok (string s)
  | _, _ => refused

theorem kind_of_check {kind : Kind} {v : Value} {d : Default} (h : check kind v = .ok d) :
    d.kind = kind := by
  unfold check Checked.refuse at h
  split at h
  · exact Except.ok.inj h ▸ rfl
  · exact Except.ok.inj h ▸ rfl
  · split at h
    · exact Except.ok.inj h ▸ rfl
    · exact nomatch h
  · split at h
    · exact Except.ok.inj h ▸ rfl
    · exact nomatch h
  · split at h
    · exact Except.ok.inj h ▸ rfl
    · exact nomatch h
  · exact Except.ok.inj h ▸ rfl
  · exact Except.ok.inj h ▸ rfl
  · exact nomatch h

end Default

structure Declaration where
  group : String
  key : String
  default : Default
  source : Option SourceField
  key_ne : key ≠ ""
deriving DecidableEq

namespace Declaration

def kind (d : Declaration) : Kind :=
  d.default.kind

def checkKind : Value → Checked Kind :=
  Checked.oneOf Kind.ofName? .noKind

def checkLabel (key : Label) : Checked { s : String // s ≠ "" } :=
  if key.isGarbled then Checked.refuse .notUnicode
  else if h : key.text = "" then Checked.refuse .emptyText
  else .ok ⟨key.text, h⟩

def checkKey (v : Value) : Checked { s : String // s ≠ "" } := do
  checkLabel (← Checked.label v)

def make (kind : Kind) (group : String) (key : Label) (value : Value)
    (source : Option SourceField) : Except Refusal Declaration :=
  let fields :=
    Checked.both (Checked.below (.named "key") (checkLabel key))
      (Checked.below (.named "default") (Default.check kind value))
  match fields with
  | .ok (key, value) => .ok ⟨group, key.1, value, source, key.2⟩
  | .error problems => .error ⟨.declaration, problems⟩

/-- Without a kind any default will do for the moment: the declaration is refused anyway. -/
def checkDefault : Checked Kind → Value → Checked Default
  | .ok kind, v => Default.check kind v
  | .error _, _ => .ok (.boolean false)

def check (v : Value) : Checked Declaration := do
  let entries ← Checked.entriesOf .declaration v
  let kind := Checked.required entries "kind" checkKind
  let fields :=
    Checked.both kind <|
    Checked.both (Checked.optional entries "group_name" "" Checked.text) <|
    Checked.both (Checked.required entries "key" checkKey) <|
    Checked.both (Checked.required entries "default" (checkDefault kind)) <|
    Checked.optional entries "source_field" none (Checked.nullable SourceField.check)
  fields.map fun (_, group, key, value, source) => ⟨group, key.1, value, source, key.2⟩

def ofValue (v : Value) : Except Refusal Declaration :=
  (check v).mapError fun problems => ⟨.declaration, problems⟩

end Declaration

end PreferenceAccessors
