import PreferenceAccessors.Proofs.Entries
import PreferenceAccessors.Proofs.Validation

/-!
Which annotation of a field counts. It is that of the first kind, in the order of
the kinds, that the field is annotated with. The declaration or the refusal of the
field depends on nothing else: not on where the annotation stands, not on those of
later kinds and not on unknown tags. A field that no kind is named for is refused,
and one without any annotation says nothing.
-/

namespace PreferenceAccessors

open Entries

/-- Of all kinds that annotations name this is the first one, and this is its annotation. -/
def LeadsWith (annotations : List (String × Annotation)) (kind : Kind) (a : Annotation) : Prop :=
  annotations.lookup kind.name = some a ∧
    ∃ before after, Kind.all = before ++ kind :: after ∧
      ∀ other ∈ before, annotations.lookup other.name = none

theorem Field.annotation?_eq (f : Field) (tag : String) :
    f.annotation? tag = f.annotations.lookup tag :=
  find?_eq_lookup f.annotations tag

theorem Field.firstAnnotation?_eq_some_iff {f : Field} {kind : Kind} {a : Annotation} :
    f.firstAnnotation? = some (kind, a) ↔ LeadsWith f.annotations kind a := by
  simp only [firstAnnotation?, List.findSome?_eq_some_iff, Option.map_eq_some_iff,
    Option.map_eq_none_iff, annotation?_eq, LeadsWith]
  constructor
  · rintro ⟨before, first, after, hall, ⟨_, hfirst, hpair⟩, hbefore⟩
    obtain ⟨rfl, rfl⟩ := Prod.mk.inj hpair
    exact ⟨hfirst, before, after, hall, hbefore⟩
  · rintro ⟨hfirst, before, after, hall, hbefore⟩
    exact ⟨before, kind, after, hall, ⟨a, hfirst, rfl⟩, hbefore⟩

theorem Field.firstAnnotation?_eq_none_iff {f : Field} :
    f.firstAnnotation? = none ↔ ∀ kind : Kind, kind.name ∉ f.tags := by
  simp only [firstAnnotation?_eq_none, annotation?_eq, lookup_eq_none_iff_not_mem]
  rfl

theorem exists_leadsWith_iff {f : Field} :
    (∃ kind a, LeadsWith f.annotations kind a) ↔ ∃ kind : Kind, kind.name ∈ f.tags := by
  have hnone := f.firstAnnotation?_eq_none_iff.not
  simp only [not_forall, not_not] at hnone
  rw [← hnone, ← ne_eq, Option.ne_none_iff_exists', Prod.exists]
  simp only [Field.firstAnnotation?_eq_some_iff]

section Mapping
variable {annotations others : List (String × Annotation)}

theorem LeadsWith.perm {kind : Kind} {a : Annotation} (h : LeadsWith annotations kind a)
    (hnodup : (annotations.map Prod.fst).Nodup) (hperm : annotations.Perm others) :
    LeadsWith others kind a := by
  obtain ⟨hfirst, before, after, hall, hbefore⟩ := h
  have htags := hperm.map Prod.fst
  refine ⟨?_, before, after, hall, fun other hother => ?_⟩
  · exact lookup_eq_some_of_mem (htags.nodup_iff.mp hnodup)
      (hperm.mem_iff.mp (mem_of_lookup_eq_some hfirst))
  · rw [lookup_eq_none_iff_not_mem, ← htags.mem_iff, ← lookup_eq_none_iff_not_mem]
    exact hbefore other hother

end Mapping

namespace Annotation

inductive GivesKey (a : Annotation) (name : Label) : Label → Prop
  | own {key : Label} (h : a.key = some key) (hne : key.text ≠ "") : GivesKey a name key
  | absent (h : a.key = none) : GivesKey a name name
  | empty {key : Label} (h : a.key = some key) (hempty : key.text = "") : GivesKey a name name

inductive GivesDefault (a : Annotation) : Default → Prop
  | own {d : Default} (h : a.default ≠ .null) (hd : d.Keeps a.default) : GivesDefault a d
  | zero (kind : Kind) (h : a.default = .null) : GivesDefault a (.zeroOf kind)

theorem givesKey_iff {a : Annotation} {name key : Label} :
    a.GivesKey name key ↔ a.keyOr name = key := by
  constructor
  · rintro (⟨h, hne⟩ | ⟨h⟩ | ⟨h, hempty⟩)
    · simp [keyOr, h, hne]
    · simp [keyOr, h]
    · simp [keyOr, h, hempty]
  · rintro rfl
    cases h : a.key with
    | none =>
      have hname : a.keyOr name = name := by simp [keyOr, h]
      rw [hname]
      exact .absent h
    | some key =>
      by_cases hempty : key.text = ""
      · have hname : a.keyOr name = name := by simp [keyOr, h, hempty]
        rw [hname]
        exact .empty h hempty
      · have hkey : a.keyOr name = key := by simp [keyOr, h, hempty]
        rw [hkey]
        exact .own h hempty

theorem valueFor_of_null {a : Annotation} (h : a.default = .null) (kind : Kind) :
    a.valueFor kind = (Default.zeroOf kind).toValue := by
  rw [valueFor, h]

theorem valueFor_of_ne_null {a : Annotation} (h : a.default ≠ .null) (kind : Kind) :
    a.valueFor kind = a.default := by
  unfold valueFor
  split
  · next hnull => exact absurd hnull h
  · rfl

theorem check_zeroOf (kind : Kind) :
    Default.check kind (Default.zeroOf kind).toValue = .ok (Default.zeroOf kind) := by
  cases kind with
  | float =>
    have hzero : (Binary.finite false 0).narrow = .finite false 0 :=
      BinaryFormat.round_zero single false 1 (by rw [BinaryFormat.single_limit]; positivity)
    rw [Default.zeroOf, Default.toValue, Default.check, hzero]
  | _ => rfl

theorem check_valueFor_eq_ok {a : Annotation} {kind : Kind} {d : Default} :
    Default.check kind (a.valueFor kind) = .ok d ↔ d.kind = kind ∧ a.GivesDefault d := by
  by_cases hnull : a.default = .null
  · rw [valueFor_of_null hnull, check_zeroOf, Except.ok.injEq]
    constructor
    · rintro rfl
      exact ⟨Default.kind_zeroOf kind, .zero kind hnull⟩
    · rintro ⟨rfl, ⟨h, -⟩ | ⟨kind, -⟩⟩
      · exact absurd hnull h
      · rw [Default.kind_zeroOf]
  · rw [valueFor_of_ne_null hnull, Default.check_eq_ok]
    refine and_congr_right fun _ => ⟨fun hd => .own hnull hd, ?_⟩
    rintro (⟨-, hd⟩ | ⟨_, h⟩)
    · exact hd
    · exact absurd h hnull

theorem exists_givesDefault_iff {a : Annotation} {kind : Kind} :
    (∃ d : Default, d.kind = kind ∧ a.GivesDefault d) ↔
      a.default = .null ∨ kind.Takes a.default := by
  constructor
  · rintro ⟨d, rfl, ⟨-, hd⟩ | ⟨kind, h⟩⟩
    · exact .inr (Kind.takes_iff.mpr ⟨d, rfl, hd⟩)
    · exact .inl h
  · by_cases hnull : a.default = .null
    · exact fun _ => ⟨_, Default.kind_zeroOf kind, .zero kind hnull⟩
    · rintro (h | h)
      · exact absurd h hnull
      · obtain ⟨d, hkind, hd⟩ := Kind.takes_iff.mp h
        exact ⟨d, hkind, .own hnull hd⟩

end Annotation

namespace Declaration

theorem key_of_make {kind : Kind} {group : String} {key : Label} {value : Value}
    {source : Option SourceField} {d : Declaration} (h : make kind group key value source = .ok d) :
    key = ⟨d.key, false⟩ := by
  obtain ⟨text, isGarbled⟩ := key
  cases isGarbled with
  | false => rw [(make_eq_ok.mp h).2.1]
  | true =>
    have hkey : Checked.below (.named "key") (checkLabel ⟨text, true⟩) =
        .error [⟨[.named "key"], .notUnicode⟩] := rfl
    unfold make at h
    rw [hkey] at h
    cases hvalue : Checked.below (.named "default") (Default.check kind value) <;>
      simp [hvalue, Checked.both] at h

/-- The declaration that an annotation of a kind makes of a field. -/
structure IsMadeBy (d : Declaration) (root : SourceRoot) (f : Field) (kind : Kind)
    (a : Annotation) : Prop where
  kind : d.kind = kind
  group : d.group = a.group
  key : a.GivesKey f.name ⟨d.key, false⟩
  default : a.GivesDefault d.default
  source : d.source = some ⟨root.name, f.name.text⟩

end Declaration

namespace SourceRoot

section Outcome
variable {root : SourceRoot} {f : Field} {kind : Kind} {a : Annotation}

theorem validate_eq_ok {d : Declaration} :
    root.validate f kind a = .ok d ↔ d.IsMadeBy root f kind a := by
  constructor
  · intro h
    have hkey := Declaration.key_of_make h
    rw [validate, hkey] at h
    obtain ⟨hgroup, -, hsource, hdefault⟩ := Declaration.make_eq_ok.mp h
    obtain ⟨hkind, hdefault⟩ := Annotation.check_valueFor_eq_ok.mp hdefault
    exact ⟨hkind, hgroup, Annotation.givesKey_iff.mpr hkey, hdefault, hsource⟩
  · rintro ⟨hkind, hgroup, hkey, hdefault, hsource⟩
    rw [validate, Annotation.givesKey_iff.mp hkey]
    exact Declaration.make_eq_ok.mpr
      ⟨hgroup, rfl, hsource, Annotation.check_valueFor_eq_ok.mpr ⟨hkind, hdefault⟩⟩

theorem exists_isMadeBy_iff :
    (∃ d : Declaration, d.IsMadeBy root f kind a) ↔
      (∃ key, key ≠ "" ∧ a.GivesKey f.name ⟨key, false⟩) ∧
        (a.default = .null ∨ kind.Takes a.default) := by
  rw [← Annotation.exists_givesDefault_iff]
  constructor
  · rintro ⟨d, h⟩
    exact ⟨⟨d.key, d.key_ne, h.key⟩, d.default, h.kind, h.default⟩
  · rintro ⟨⟨key, hne, hkey⟩, default, hkind, hdefault⟩
    exact ⟨⟨a.group, key, default, some ⟨root.name, f.name.text⟩, hne⟩, hkind, rfl, hkey, hdefault,
      rfl⟩

theorem declare_of_leads (h : LeadsWith f.annotations kind a) :
    root.declare f =
      some ((root.validate f kind a).mapError (.invalid kind ⟨root.name, f.name.text⟩)) := by
  have hne : f.annotations ≠ [] := by
    intro hnil
    simp [LeadsWith, hnil] at h
  rw [declare, if_neg (by simpa using hne),
    resolve_of_some (Field.firstAnnotation?_eq_some_iff.mpr h)]
  rfl

theorem declare_of_unknown (hne : f.annotations ≠ []) (h : ∀ kind : Kind, kind.name ∉ f.tags) :
    root.declare f = some (.error (.unsupported ⟨root.name, f.name.text⟩ f.tags)) := by
  rw [declare, if_neg (by simpa using hne),
    resolve_of_none (Field.firstAnnotation?_eq_none_iff.mpr h)]
  rfl

theorem declare_eq_none_iff : root.declare f = none ↔ f.annotations = [] := by
  simp [declare]

end Outcome

/-- A field says nothing exactly when it has no annotation, and with unknown tags alone it is
refused. Otherwise the annotation of its first kind decides, and two fields that agree on that one
have the same outcome: the declaration that it makes when its key and its default will do, and a
refusal of that kind when they will not. -/
theorem declare_decided_by_first (root : SourceRoot) (f : Field) :
    (root.declare f = none ↔ f.annotations = []) ∧
    (f.annotations ≠ [] → (∀ kind : Kind, kind.name ∉ f.tags) →
      root.declare f = some (.error (.unsupported ⟨root.name, f.name.text⟩ f.tags))) ∧
    ((∃ kind a, LeadsWith f.annotations kind a) ↔ ∃ kind : Kind, kind.name ∈ f.tags) ∧
    ∀ kind a, LeadsWith f.annotations kind a →
      (∀ others, LeadsWith others kind a →
        root.declare { f with annotations := others } = root.declare f) ∧
      (f.tags.Nodup → ∀ others, f.annotations.Perm others →
        root.declare { f with annotations := others } = root.declare f) ∧
      (∀ d, root.declare f = some (.ok d) ↔ d.IsMadeBy root f kind a) ∧
      ((∃ d, root.declare f = some (.ok d)) ↔
        (∃ key, key ≠ "" ∧ a.GivesKey f.name ⟨key, false⟩) ∧
          (a.default = .null ∨ kind.Takes a.default)) ∧
      ((¬ ∃ d, root.declare f = some (.ok d)) →
        ∃ refusal, root.declare f =
          some (.error (.invalid kind ⟨root.name, f.name.text⟩ refusal))) := by
  refine ⟨declare_eq_none_iff, declare_of_unknown, exists_leadsWith_iff, fun kind a h => ?_⟩
  have hsame : ∀ others, LeadsWith others kind a →
      root.declare { f with annotations := others } = root.declare f := by
    intro others hothers
    rw [declare_of_leads h]
    exact declare_of_leads hothers
  have hmade : ∀ d, root.declare f = some (.ok d) ↔ d.IsMadeBy root f kind a := by
    intro d
    rw [declare_of_leads h, ← validate_eq_ok]
    cases root.validate f kind a <;> simp [Except.mapError]
  refine ⟨hsame, fun hnodup others hperm => hsame others (h.perm hnodup hperm), hmade, ?_, ?_⟩
  · rw [exists_congr hmade, exists_isMadeBy_iff]
  · intro hnone
    rw [declare_of_leads h] at hnone ⊢
    cases hvalid : root.validate f kind a with
    | ok d => exact absurd ⟨d, by rw [hvalid]; rfl⟩ hnone
    | error refusal => exact ⟨refusal, rfl⟩

def Sample.root : SourceRoot := ⟨"A", .classElement, []⟩

def Sample.plain : Annotation := ⟨"G", some ⟨"", false⟩, .null⟩

def Sample.twice : Field :=
  ⟨⟨"size", false⟩, .fieldElement, [("string", ⟨"", none, .null⟩), ("float", Sample.plain)]⟩

def Sample.elsewhere : List (String × Annotation) :=
  [("other", Sample.plain), ("float", Sample.plain), ("long", ⟨"H", none, .text "x"⟩)]

def Sample.misfit : Field :=
  ⟨⟨"size", false⟩, .fieldElement, [("string", ⟨"", none, .text "x"⟩), ("int", ⟨"", none, .text "x"⟩)]⟩

def Sample.unknown : Field :=
  ⟨⟨"size", false⟩, .fieldElement, [("other", Sample.plain)]⟩

theorem declare_decided_by_float :
    LeadsWith Sample.twice.annotations .float Sample.plain ∧
    LeadsWith Sample.elsewhere .float Sample.plain ∧
    Sample.root.declare { Sample.twice with annotations := Sample.elsewhere } =
      Sample.root.declare Sample.twice ∧
    Sample.twice.tags.Nodup ∧
    Sample.root.declare { Sample.twice with annotations := Sample.twice.annotations.reverse } =
      Sample.root.declare Sample.twice ∧
    Sample.root.declare Sample.twice = some (.ok ⟨"G", "size", .float (.finite false 0),
      some ⟨"A", "size"⟩, by decide⟩) ∧
    LeadsWith Sample.misfit.annotations .int ⟨"", none, .text "x"⟩ ∧
    (∃ refusal, Sample.root.declare Sample.misfit =
      some (.error (.invalid .int ⟨"A", "size"⟩ refusal))) ∧
    Sample.unknown.annotations ≠ [] ∧ (∀ kind : Kind, kind.name ∉ Sample.unknown.tags) ∧
    Sample.root.declare Sample.unknown =
      some (.error (.unsupported ⟨"A", "size"⟩ ["other"])) := by
  have htwice : LeadsWith Sample.twice.annotations .float Sample.plain :=
    ⟨rfl, [.boolean], [.int, .long, .string], rfl, List.forall_mem_singleton.mpr rfl⟩
  have helsewhere : LeadsWith Sample.elsewhere .float Sample.plain :=
    ⟨rfl, [.boolean], [.int, .long, .string], rfl, List.forall_mem_singleton.mpr rfl⟩
  have hmisfit : LeadsWith Sample.misfit.annotations .int ⟨"", none, .text "x"⟩ :=
    ⟨rfl, [.boolean, .float], [.long, .string], rfl,
      List.forall_mem_cons.mpr ⟨rfl, List.forall_mem_singleton.mpr rfl⟩⟩
  have hnodup : Sample.twice.tags.Nodup := by decide
  have hunknown : ∀ kind : Kind, kind.name ∉ Sample.unknown.tags := by
    intro kind
    cases kind <;> decide
  obtain ⟨-, -, -, hdecided⟩ := declare_decided_by_first Sample.root Sample.twice
  obtain ⟨hsame, hpermuted, hmade, -, -⟩ := hdecided _ _ htwice
  obtain ⟨-, -, -, hmisfitted⟩ := declare_decided_by_first Sample.root Sample.misfit
  obtain ⟨-, -, -, hdeclared, hrefused⟩ := hmisfitted _ _ hmisfit
  have htakes : ¬ ∃ d, Sample.root.declare Sample.misfit = some (.ok d) := by
    rw [hdeclared]
    rintro ⟨-, hnull | htakes⟩
    · cases hnull
    · cases htakes
  exact ⟨htwice, helsewhere, hsame _ helsewhere, hnodup,
    hpermuted hnodup _ (List.reverse_perm _).symm,
    (hmade _).mpr ⟨rfl, rfl, .empty rfl rfl, .zero .float rfl, rfl⟩, hmisfit, hrefused htakes,
    List.cons_ne_nil _ _, hunknown,
    (declare_decided_by_first Sample.root Sample.unknown).2.1 (List.cons_ne_nil _ _) hunknown⟩

end SourceRoot

end PreferenceAccessors
