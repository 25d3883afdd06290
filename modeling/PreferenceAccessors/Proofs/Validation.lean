import PreferenceAccessors.Proofs.ConfigLine
import PreferenceAccessors.Proofs.Safety
import PreferenceAccessors.Proofs.Number.Widening

/-!
Which untyped values are declarations. What a mapping has to hold is said once
for acceptance, by kinds and ranges, and once for the declaration that it gives:
every field is kept, and only a float default is widened and narrowed. A text
may stand as bytes, and where it is neither a kind nor a key it may be garbled.
-/

namespace PreferenceAccessors

namespace Value

/-- A readable text; bytes pass for the text that they are UTF-8 of. -/
inductive IsText : Value → String → Prop
  | text (s : String) : IsText (.text s) s
  | bytes {b : ByteArray} {s : String} (h : String.fromUTF8? b = some s) : IsText (.bytes b) s

inductive HoldsText : Value → String → Prop
  | readable {v : Value} {s : String} (h : IsText v s) : HoldsText v s
  | garbled (s : String) : HoldsText (.garbled s) s

def HasEntry (entries : List (Value × Value)) (name : String) (p : Value → Prop) : Prop :=
  ∃ v, lookup entries name = some v ∧ p v

end Value

open Value

namespace Checked

variable {α β : Type}

theorem map_eq_ok {x : Checked α} {f : α → β} {b : β} :
    x.map f = .ok b ↔ ∃ a, x = .ok a ∧ f a = b := by
  cases x <;> simp [Except.map]

theorem required_eq_ok {entries : List (Value × Value)} {name : String}
    {check : Value → Checked α} {a : α} :
    required entries name check = .ok a ↔ HasEntry entries name (check · = .ok a) := by
  rw [required, below_eq_ok]
  cases h : lookup entries name with
  | none => simp [HasEntry, h, refuse]
  | some v => simp [HasEntry, h]

theorem optional_eq_ok {entries : List (Value × Value)} {name : String} {absent : α}
    {check : Value → Checked α} {a : α} :
    optional entries name absent check = .ok a ↔
      HasEntry entries name (check · = .ok a) ∨ lookup entries name = none ∧ a = absent := by
  rw [optional, below_eq_ok]
  cases h : lookup entries name with
  | none => simp [HasEntry, h, eq_comm]
  | some v => simp [HasEntry, h]

theorem label_eq_ok {v : Value} {l : Label} :
    label v = .ok l ↔
      l.isGarbled = false ∧ IsText v l.text ∨ l.isGarbled = true ∧ v = .garbled l.text := by
  obtain ⟨s, isGarbled⟩ := l
  constructor
  · intro h
    cases v with
    | text t =>
      cases h
      exact .inl ⟨rfl, .text s⟩
    | garbled t =>
      cases h
      exact .inr ⟨rfl, rfl⟩
    | bytes b =>
      rw [label] at h
      split at h
      · next t ht =>
        cases h
        exact .inl ⟨rfl, .bytes ht⟩
      · simp [refuse] at h
    | _ => simp [label, refuse] at h
  · rintro (⟨rfl, hv⟩ | ⟨rfl, rfl⟩)
    · cases hv with
      | text => rfl
      | bytes hb => simp only [label, hb]
    · rfl

theorem text_eq_ok {v : Value} {s : String} : text v = .ok s ↔ HoldsText v s := by
  rw [text, map_eq_ok]
  constructor
  · rintro ⟨l, hl, rfl⟩
    rcases label_eq_ok.mp hl with ⟨-, hv⟩ | ⟨-, rfl⟩
    · exact .readable hv
    · exact .garbled l.text
  · intro h
    cases h with
    | readable hv => exact ⟨⟨s, false⟩, label_eq_ok.mpr (.inl ⟨rfl, hv⟩), rfl⟩
    | garbled => exact ⟨⟨s, true⟩, rfl, rfl⟩

theorem oneOf_eq_ok {ofName? : String → Option α} {otherwise : Cause} {v : Value} {a : α} :
    oneOf ofName? otherwise v = .ok a ↔ ∃ s, IsText v s ∧ ofName? s = some a := by
  constructor
  · intro h
    unfold oneOf at h
    split at h
    · simp [refuse] at h
    · next hgarbled =>
      split at h
      · next l hl =>
        rcases label_eq_ok.mp hl with ⟨-, hv⟩ | ⟨-, rfl⟩
        · refine ⟨l.text, hv, ?_⟩
          split at h
          · next b hb => rw [hb, Except.ok.inj h]
          · simp [refuse] at h
        · exact absurd rfl (hgarbled l.text)
      · simp [refuse] at h
  · rintro ⟨s, hs, ha⟩
    have hlabel : label v = .ok ⟨s, false⟩ := label_eq_ok.mpr (.inl ⟨rfl, hs⟩)
    cases hs with
    | text => simp only [oneOf, hlabel, ha]
    | bytes => simp only [oneOf, hlabel, ha]

def problems : Checked α → List Problem
  | .ok _ => []
  | .error ps => ps

theorem problems_both (x : Checked α) (y : Checked β) :
    (both x y).problems = x.problems ++ y.problems := by
  cases x <;> cases y <;> simp [both, problems]

theorem problems_map (x : Checked α) (f : α → β) : problems (x.map f) = x.problems := by
  cases x <;> rfl

theorem head?_path_below {place : Place} {x : Checked α} {p : Problem}
    (h : p ∈ (below place x).problems) : p.path.head? = some place := by
  cases x with
  | ok a => simp [below, problems] at h
  | error ps =>
    obtain ⟨q, -, rfl⟩ := List.mem_map.mp h
    rfl

end Checked

theorem Kind.ofName?_eq_some {s : String} {k : Kind} : ofName? s = some k ↔ s = k.name := by
  constructor
  · intro h
    have hname := List.find?_some h
    exact (eq_of_beq hname).symm
  · rintro rfl
    exact ofName?_name k

namespace SourceField

def IsGiven (s : SourceField) (v : Value) : Prop :=
  ∃ entries, v = .map entries ∧ HasEntry entries "owner" (HoldsText · s.owner) ∧
    HasEntry entries "name" (HoldsText · s.name)

theorem check_eq_ok {v : Value} {s : SourceField} : check v = .ok s ↔ s.IsGiven v := by
  cases v with
  | map entries =>
    have hcheck : check (.map entries) =
        (Checked.both (Checked.required entries "owner" Checked.text)
          (Checked.required entries "name" Checked.text)).map fun f => ⟨f.1, f.2⟩ := rfl
    simp only [hcheck, Checked.map_eq_ok, Prod.exists, Checked.both_eq_ok,
      Checked.required_eq_ok, Checked.text_eq_ok, IsGiven, Value.map.injEq, exists_eq_left']
    constructor
    · rintro ⟨owner, name, h, rfl⟩
      exact h
    · exact fun h => ⟨s.owner, s.name, h, rfl⟩
  | _ => simp [check, Checked.entriesOf, Checked.refuse, bind, Except.bind, IsGiven]

theorem nullable_check_eq_ok {v : Value} {o : Option SourceField} :
    Checked.nullable check v = .ok o ↔
      v = .null ∧ o = none ∨ ∃ s : SourceField, s.IsGiven v ∧ o = some s := by
  by_cases hnull : v = .null
  · subst hnull
    have hnone : ∀ s : SourceField, ¬ s.IsGiven .null := by
      rintro s ⟨entries, hv, -⟩
      cases hv
    simp [Checked.nullable, hnone, eq_comm]
  · have hsome : Checked.nullable check v = (check v).map some := by
      cases v <;> first | rfl | exact absurd rfl hnull
    simp only [hsome, Checked.map_eq_ok, check_eq_ok, hnull, false_and, false_or]
    exact exists_congr fun s => and_congr_right fun _ => eq_comm

end SourceField

/-- The defaults that fit a kind. -/
inductive Kind.Takes : Kind → Value → Prop
  | boolean (b : Bool) : Takes .boolean (.bool b)
  | float (x : Binary) : Takes .float (.float x)
  | widened {i : ℤ} (h : |i| < 2 ^ 1024 - 2 ^ 970) : Takes .float (.int i)
  | int {i : ℤ} (h : -2 ^ 31 ≤ i ∧ i ≤ 2 ^ 31 - 1) : Takes .int (.int i)
  | long {i : ℤ} (h : -2 ^ 63 ≤ i ∧ i ≤ 2 ^ 63 - 1) : Takes .long (.int i)
  | text (s : String) : Takes .string (.text s)
  | garbled (s : String) : Takes .string (.garbled s)

namespace Default

/-- What is kept of a value: all of it, but for a float, which is narrowed. -/
inductive Keeps : Default → Value → Prop
  | boolean (b : Bool) : Keeps (.boolean b) (.bool b)
  | float (x : Binary) : Keeps (.float x.narrow) (.float x)
  | widened {i : ℤ} {x : Binary} (h : Binary.Widens i x) : Keeps (.float x.narrow) (.int i)
  | int (i : Int32) : Keeps (.int i) (.int i.toInt)
  | long (i : Int64) : Keeps (.long i) (.int i.toInt)
  | text (s : String) : Keeps (.string s) (.text s)
  | garbled (s : String) : Keeps (.string s) (.garbled s)

theorem Keeps.ofInt32 {i : ℤ} (hlow : -2 ^ 31 ≤ i) (hhigh : i < 2 ^ 31) :
    Keeps (.int (Int32.ofInt i)) (.int i) := by
  have hkeeps := Keeps.int (Int32.ofInt i)
  rwa [Int32.toInt_ofInt_of_le hlow hhigh] at hkeeps

theorem Keeps.ofInt64 {i : ℤ} (hlow : -2 ^ 63 ≤ i) (hhigh : i < 2 ^ 63) :
    Keeps (.long (Int64.ofInt i)) (.int i) := by
  have hkeeps := Keeps.long (Int64.ofInt i)
  rwa [Int64.toInt_ofInt_of_le hlow hhigh] at hkeeps

theorem keeps_of_check {kind : Kind} {v : Value} {d : Default} (h : check kind v = .ok d) :
    d.Keeps v := by
  unfold check Checked.refuse at h
  split at h
  case h_1 b =>
    cases h
    exact .boolean b
  case h_2 x =>
    cases h
    exact .float x
  case h_3 i =>
    split at h
    case h_1 x hx =>
      cases h
      exact .widened (Binary.ofInt?_eq_some_iff.mp hx)
    case h_2 => simp at h
  case h_4 i =>
    split_ifs at h with hrange
    cases h
    exact .ofInt32 hrange.1 hrange.2
  case h_5 i =>
    split_ifs at h with hrange
    cases h
    exact .ofInt64 hrange.1 hrange.2
  case h_6 s =>
    cases h
    exact .text s
  case h_7 s =>
    cases h
    exact .garbled s
  case h_8 => simp at h

theorem Keeps.check_eq {d : Default} {v : Value} (h : d.Keeps v) : check d.kind v = .ok d := by
  cases h with
  | boolean => rfl
  | float => rfl
  | widened hx => simp only [kind, check, Binary.ofInt?_eq_some_iff.mpr hx]
  | int i =>
    have hrange : -0x80000000 ≤ i.toInt ∧ i.toInt < 0x80000000 := ⟨i.le_toInt, i.toInt_lt⟩
    simp only [kind, check, if_pos hrange, Int32.ofInt_toInt]
  | long i =>
    have hrange : -0x8000000000000000 ≤ i.toInt ∧ i.toInt < 0x8000000000000000 :=
      ⟨i.le_toInt, i.toInt_lt⟩
    simp only [kind, check, if_pos hrange, Int64.ofInt_toInt]
  | text => rfl
  | garbled => rfl

theorem check_eq_ok {kind : Kind} {v : Value} {d : Default} :
    check kind v = .ok d ↔ d.kind = kind ∧ d.Keeps v := by
  constructor
  · exact fun h => ⟨kind_of_check h, keeps_of_check h⟩
  · rintro ⟨rfl, h⟩
    exact h.check_eq

theorem keeps_toValue {d : Default} {v : Value} (h : d.Keeps v) : d.Keeps d.toValue := by
  have hfloat : ∀ x : Binary, Keeps (.float x.narrow) (.float x.narrow) := by
    intro x
    have hkeeps := Keeps.float x.narrow
    rwa [Binary.narrow_narrow] at hkeeps
  cases h with
  | boolean b => exact .boolean b
  | float x => exact hfloat x
  | widened => exact hfloat _
  | int i => exact .int i
  | long i => exact .long i
  | text s => exact .text s
  | garbled s => exact .text s

end Default

theorem Kind.takes_iff {kind : Kind} {v : Value} :
    kind.Takes v ↔ ∃ d : Default, d.kind = kind ∧ d.Keeps v := by
  constructor
  · intro h
    cases h with
    | boolean b => exact ⟨_, rfl, .boolean b⟩
    | float x => exact ⟨_, rfl, .float x⟩
    | widened hi =>
      obtain ⟨x, hx⟩ := Binary.exists_widens_iff.mpr hi
      exact ⟨_, rfl, .widened hx⟩
    | int hi => exact ⟨_, rfl, .ofInt32 hi.1 (Int.lt_of_le_sub_one hi.2)⟩
    | long hi => exact ⟨_, rfl, .ofInt64 hi.1 (Int.lt_of_le_sub_one hi.2)⟩
    | text s => exact ⟨_, rfl, .text s⟩
    | garbled s => exact ⟨_, rfl, .garbled s⟩
  · rintro ⟨d, rfl, h⟩
    cases h with
    | boolean b => exact .boolean b
    | float x => exact .float x
    | widened hx => exact .widened (Binary.exists_widens_iff.mp ⟨_, hx⟩)
    | int i => exact .int ⟨i.le_toInt, Int.le_sub_one_of_lt i.toInt_lt⟩
    | long i => exact .long ⟨i.le_toInt, Int.le_sub_one_of_lt i.toInt_lt⟩
    | text s => exact .text s
    | garbled s => exact .garbled s

namespace Declaration

/-- The entries of a mapping that passes for a declaration. -/
structure Acceptable (entries : List (Value × Value)) : Prop where
  default : ∃ kind : Kind, HasEntry entries "kind" (IsText · kind.name) ∧
    HasEntry entries "default" kind.Takes
  group : ∀ v, lookup entries "group_name" = some v → ∃ s, HoldsText v s
  key : ∃ s, s ≠ "" ∧ HasEntry entries "key" (IsText · s)
  source : ∀ v, lookup entries "source_field" = some v →
    v = .null ∨ ∃ s : SourceField, s.IsGiven v

/-- The entries give this declaration, field by field. -/
structure IsGiven (d : Declaration) (entries : List (Value × Value)) : Prop where
  kind : HasEntry entries "kind" (IsText · d.kind.name)
  group : HasEntry entries "group_name" (HoldsText · d.group) ∨
    lookup entries "group_name" = none ∧ d.group = ""
  key : HasEntry entries "key" (IsText · d.key)
  default : HasEntry entries "default" d.default.Keeps
  source : HasEntry entries "source_field" (fun v => v = .null ∧ d.source = none ∨
      ∃ s : SourceField, s.IsGiven v ∧ d.source = some s) ∨
    lookup entries "source_field" = none ∧ d.source = none

theorem acceptable_iff {entries : List (Value × Value)} :
    Acceptable entries ↔ ∃ d : Declaration, d.IsGiven entries := by
  constructor
  · intro h
    obtain ⟨kind, hkind, v, hv, htakes⟩ := h.default
    obtain ⟨default, rfl, hkeeps⟩ := Kind.takes_iff.mp htakes
    obtain ⟨key, hne, hkey⟩ := h.key
    have hgroup : ∃ group, HasEntry entries "group_name" (HoldsText · group) ∨
        lookup entries "group_name" = none ∧ group = "" := by
      cases hlookup : lookup entries "group_name" with
      | none => exact ⟨"", .inr ⟨rfl, rfl⟩⟩
      | some w =>
        obtain ⟨s, hs⟩ := h.group w hlookup
        exact ⟨s, .inl ⟨w, hlookup, hs⟩⟩
    have hsource : ∃ source, HasEntry entries "source_field" (fun v => v = .null ∧ source = none ∨
          ∃ s : SourceField, s.IsGiven v ∧ source = some s) ∨
        lookup entries "source_field" = none ∧ source = none := by
      cases hlookup : lookup entries "source_field" with
      | none => exact ⟨none, .inr ⟨rfl, rfl⟩⟩
      | some w =>
        rcases h.source w hlookup with hnull | ⟨s, hs⟩
        · exact ⟨none, .inl ⟨w, hlookup, .inl ⟨hnull, rfl⟩⟩⟩
        · exact ⟨some s, .inl ⟨w, hlookup, .inr ⟨s, hs, rfl⟩⟩⟩
    obtain ⟨group, hgroup⟩ := hgroup
    obtain ⟨source, hsource⟩ := hsource
    exact ⟨⟨group, key, default, source, hne⟩, hkind, hgroup, hkey, ⟨v, hv, hkeeps⟩, hsource⟩
  · rintro ⟨d, hkind, hgroup, hkey, ⟨v, hv, hkeeps⟩, hsource⟩
    refine ⟨⟨d.kind, hkind, v, hv, Kind.takes_iff.mpr ⟨d.default, rfl, hkeeps⟩⟩, ?_,
      ⟨d.key, d.key_ne, hkey⟩, ?_⟩
    · intro w hw
      rcases hgroup with ⟨w', hw', hs⟩ | ⟨hnone, -⟩
      · rw [hw, Option.some.injEq] at hw'
        exact ⟨d.group, hw' ▸ hs⟩
      · simp [hw] at hnone
    · intro w hw
      rcases hsource with ⟨w', hw', hs⟩ | ⟨hnone, -⟩
      · rw [hw, Option.some.injEq] at hw'
        subst hw'
        exact hs.imp (fun h => h.1) (fun ⟨s, hs, _⟩ => ⟨s, hs⟩)
      · simp [hw] at hnone

theorem checkKind_eq_ok {v : Value} {kind : Kind} :
    checkKind v = .ok kind ↔ IsText v kind.name := by
  simp [checkKind, Checked.oneOf_eq_ok, Kind.ofName?_eq_some]

theorem checkKey_eq_ok {v : Value} {key : { s : String // s ≠ "" }} :
    checkKey v = .ok key ↔ IsText v key.1 := by
  have hbind : checkKey v = .ok key ↔ ∃ l, Checked.label v = .ok l ∧ checkLabel l = .ok key := by
    unfold checkKey
    cases Checked.label v <;> simp [bind, Except.bind]
  rw [hbind]
  constructor
  · rintro ⟨⟨s, isGarbled⟩, hl, hkey⟩
    rcases Checked.label_eq_ok.mp hl with ⟨hfalse, hv⟩ | ⟨htrue, -⟩
    · obtain rfl : isGarbled = false := hfalse
      rwa [checkLabel_eq_ok.mp hkey]
    · obtain rfl : isGarbled = true := htrue
      simp [checkLabel, Checked.refuse] at hkey
  · intro h
    exact ⟨⟨key.1, false⟩, Checked.label_eq_ok.mpr (.inl ⟨rfl, h⟩), checkLabel_eq_ok.mpr rfl⟩

def checkFields (entries : List (Value × Value)) :
    Checked (Kind × String × { s : String // s ≠ "" } × Default × Option SourceField) :=
  Checked.both (Checked.required entries "kind" checkKind) <|
    Checked.both (Checked.optional entries "group_name" "" Checked.text) <|
    Checked.both (Checked.required entries "key" checkKey) <|
    Checked.both (Checked.required entries "default"
      (checkDefault (Checked.required entries "kind" checkKind))) <|
    Checked.optional entries "source_field" none (Checked.nullable SourceField.check)

theorem check_map (entries : List (Value × Value)) :
    check (.map entries) = (checkFields entries).map fun f =>
      ⟨f.2.1, f.2.2.1.1, f.2.2.2.1, f.2.2.2.2, f.2.2.1.2⟩ := rfl

theorem check_map_eq_ok {entries : List (Value × Value)} {d : Declaration} :
    check (.map entries) = .ok d ↔ d.IsGiven entries := by
  simp only [check_map, checkFields, Checked.map_eq_ok, Prod.exists, Checked.both_eq_ok]
  constructor
  · rintro ⟨kind, group, key, default, source, ⟨hkind, hgroup, hkey, hdefault, hsource⟩, rfl⟩
    rw [hkind] at hdefault
    simp only [Checked.required_eq_ok, Checked.optional_eq_ok, checkKind_eq_ok, checkKey_eq_ok,
      Checked.text_eq_ok, SourceField.nullable_check_eq_ok, checkDefault, Default.check_eq_ok]
      at hkind hgroup hkey hdefault hsource
    obtain ⟨v, hv, rfl, hkeeps⟩ := hdefault
    exact ⟨hkind, hgroup, hkey, ⟨v, hv, hkeeps⟩, hsource⟩
  · rintro ⟨hkind, hgroup, hkey, ⟨v, hv, hkeeps⟩, hsource⟩
    have hcheckKind : Checked.required entries "kind" checkKind = .ok d.kind := by
      simpa only [Checked.required_eq_ok, checkKind_eq_ok] using hkind
    refine ⟨d.kind, d.group, ⟨d.key, d.key_ne⟩, d.default, d.source, ⟨hcheckKind, ?_⟩, rfl⟩
    rw [hcheckKind]
    simp only [Checked.required_eq_ok, Checked.optional_eq_ok, checkKey_eq_ok, Checked.text_eq_ok,
      SourceField.nullable_check_eq_ok, checkDefault]
    exact ⟨hgroup, hkey, ⟨v, hv, hkeeps.check_eq⟩, hsource⟩

theorem check_eq_ok {v : Value} {d : Declaration} :
    check v = .ok d ↔ ∃ entries, v = .map entries ∧ d.IsGiven entries := by
  cases v with
  | map entries => simp [check_map_eq_ok]
  | _ => simp [check, Checked.entriesOf, Checked.refuse, bind, Except.bind]

theorem ofValue_eq_ok {v : Value} {d : Declaration} : ofValue v = .ok d ↔ check v = .ok d := by
  unfold ofValue
  cases check v <;> simp [Except.mapError]

def toEntries (d : Declaration) : List (Value × Value) :=
  [(.text "kind", .text d.kind.name), (.text "group_name", .text d.group),
    (.text "key", .text d.key), (.text "default", d.default.toValue),
    (.text "source_field",
      (d.source.map fun s => SourceField.toValue s.owner (.text s.name)).getD .null)]

theorem IsGiven.toEntries {d : Declaration} {entries : List (Value × Value)}
    (h : d.IsGiven entries) : d.IsGiven d.toEntries := by
  obtain ⟨v, -, hkeeps⟩ := h.default
  refine ⟨⟨_, rfl, .text _⟩, .inl ⟨_, rfl, .readable (.text _)⟩, ⟨_, rfl, .text _⟩,
    ⟨_, rfl, Default.keeps_toValue hkeeps⟩, .inl ⟨_, rfl, ?_⟩⟩
  cases hsource : d.source with
  | none => exact .inl ⟨rfl, rfl⟩
  | some s =>
    exact .inr ⟨s, ⟨_, rfl, ⟨_, rfl, .readable (.text _)⟩, ⟨_, rfl, .readable (.text _)⟩⟩, rfl⟩

theorem problem_of_default {entries : List (Value × Value)} {p : Problem}
    (hkind : ∀ kind, Checked.required entries "kind" checkKind ≠ .ok kind)
    (hp : p ∈ (check (.map entries)).problems) (hpath : p.path.head? = some (.named "default")) :
    lookup entries "default" = none ∧ p = ⟨[.named "default"], .missing⟩ := by
  rw [check_map, Checked.problems_map, checkFields] at hp
  simp only [Checked.problems_both, List.mem_append] at hp
  have helsewhere : ∀ {α : Type} {name : String} {x : Checked α}, name ≠ "default" →
      p ∉ (Checked.below (.named name) x).problems := by
    intro α name x hname hmem
    rw [Checked.head?_path_below hmem] at hpath
    exact hname (Place.named.inj (Option.some.inj hpath))
  rcases hp with hp | hp | hp | hp | hp
  · exact absurd hp (helsewhere (by decide))
  · exact absurd hp (helsewhere (by decide))
  · exact absurd hp (helsewhere (by decide))
  · cases hchecked : Checked.required entries "kind" checkKind with
    | ok kind => exact absurd hchecked (hkind kind)
    | error ps =>
      rw [hchecked, Checked.required] at hp
      cases hlookup : lookup entries "default" with
      | none =>
        rw [hlookup] at hp
        exact ⟨rfl, List.mem_singleton.mp hp⟩
      | some v =>
        rw [hlookup] at hp
        simp [checkDefault, Checked.below, Checked.problems] at hp
  · exact absurd hp (helsewhere (by decide))

/-- Validation accepts the mappings that are acceptable and nothing else; what it gives keeps every
field, and is given again by its own fields. Where there is no kind the default is not judged. -/
theorem ofValue_accepts_iff :
    (∀ v, (∃ d, ofValue v = .ok d) ↔ ∃ entries, v = .map entries ∧ Acceptable entries) ∧
    (∀ entries d, ofValue (.map entries) = .ok d ↔ d.IsGiven entries) ∧
    (∀ v d, ofValue v = .ok d → ofValue (.map d.toEntries) = .ok d) ∧
    ∀ entries, (¬ ∃ kind : Kind, HasEntry entries "kind" (IsText · kind.name)) →
      ∃ problems, ofValue (.map entries) = .error ⟨.declaration, problems⟩ ∧
        ∀ p ∈ problems, p.path.head? = some (.named "default") →
          lookup entries "default" = none ∧ p = ⟨[.named "default"], .missing⟩ := by
  refine ⟨fun v => ?_, fun entries d => ?_, fun v d h => ?_, fun entries hnone => ?_⟩
  · simp only [ofValue_eq_ok, check_eq_ok, acceptable_iff]
    constructor
    · rintro ⟨d, entries, rfl, h⟩
      exact ⟨entries, rfl, d, h⟩
    · rintro ⟨entries, rfl, d, h⟩
      exact ⟨d, entries, rfl, h⟩
  · rw [ofValue_eq_ok, check_map_eq_ok]
  · obtain ⟨entries, rfl, hgiven⟩ := check_eq_ok.mp (ofValue_eq_ok.mp h)
    exact ofValue_eq_ok.mpr (check_map_eq_ok.mpr hgiven.toEntries)
  · have hkind : ∀ kind, Checked.required entries "kind" checkKind ≠ .ok kind := by
      intro kind h
      simp only [Checked.required_eq_ok, checkKind_eq_ok] at h
      exact hnone ⟨kind, h⟩
    cases hcheck : check (.map entries) with
    | ok d => exact absurd ⟨d.kind, (check_map_eq_ok.mp hcheck).kind⟩ hnone
    | error problems =>
      refine ⟨problems, by rw [ofValue, hcheck, Except.mapError], fun p hp hpath => ?_⟩
      exact problem_of_default hkind (hcheck ▸ hp) hpath

def numbered (kind : String) (default : ℤ) : List (Value × Value) :=
  [(.text "kind", .text kind), (.text "key", .text "k"), (.text "default", .int default)]

theorem ofValue_accepts_widest :
    (∃ d, ofValue (.map (numbered "float" (2 ^ 1024 - 2 ^ 970 - 1))) = .ok d ∧
      ofValue (.map d.toEntries) = .ok d) ∧
    (¬ ∃ d, ofValue (.map (numbered "float" (2 ^ 1024 - 2 ^ 970))) = .ok d) ∧
    (¬ ∃ kind : Kind, HasEntry (numbered "number" 1) "kind" (IsText · kind.name)) ∧
    ∃ problems, ofValue (.map (numbered "number" 1)) = .error ⟨.declaration, problems⟩ ∧
      ∀ p ∈ problems, p.path.head? ≠ some (.named "default") := by
  obtain ⟨haccepts, -, hagain, hunjudged⟩ := ofValue_accepts_iff
  have hnumber : ¬ ∃ kind : Kind, HasEntry (numbered "number" 1) "kind" (IsText · kind.name) := by
    rintro ⟨kind, v, hv, htext⟩
    obtain rfl : Value.text "number" = v := Option.some.inj hv
    generalize hname : kind.name = name at htext
    cases htext
    cases kind <;> exact absurd hname (by decide)
  have hgroup : ∀ kind i, lookup (numbered kind i) "group_name" = none := fun _ _ => rfl
  have hsource : ∀ kind i, lookup (numbered kind i) "source_field" = none := fun _ _ => rfl
  have hdefault : ∀ kind i, lookup (numbered kind i) "default" = some (.int i) := fun _ _ => rfl
  refine ⟨?_, ?_, hnumber, ?_⟩
  · have hacceptable : Acceptable (numbered "float" (2 ^ 1024 - 2 ^ 970 - 1)) := by
      refine ⟨⟨.float, ⟨_, rfl, .text _⟩, _, hdefault _ _, .widened (by decide +kernel)⟩,
        fun v hv => ?_, ⟨"k", by decide, _, rfl, .text "k"⟩, fun v hv => ?_⟩
      · rw [hgroup] at hv
        cases hv
      · rw [hsource] at hv
        cases hv
    obtain ⟨d, hd⟩ := (haccepts _).mpr ⟨_, rfl, hacceptable⟩
    exact ⟨d, hd, hagain _ d hd⟩
  · rw [haccepts]
    rintro ⟨entries, hentries, ⟨kind, -, v, hv, htakes⟩, -, -, -⟩
    rw [← Value.map.inj hentries, hdefault, Option.some.injEq] at hv
    generalize hi : (2 ^ 1024 - 2 ^ 970 : ℤ) = i at hv
    subst hv
    cases htakes with
    | widened h =>
      rw [hi] at h
      exact absurd h (not_lt.mpr (le_abs_self i))
    | int h =>
      rw [← hi] at h
      exact absurd h.2 (by decide +kernel)
    | long h =>
      rw [← hi] at h
      exact absurd h.2 (by decide +kernel)
  · obtain ⟨problems, hrefused, hall⟩ := hunjudged _ hnumber
    refine ⟨problems, hrefused, fun p hp hpath => ?_⟩
    have hmissing := (hall p hp hpath).1
    rw [hdefault] at hmissing
    cases hmissing

end Declaration

end PreferenceAccessors
