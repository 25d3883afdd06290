import Mathlib.Tactic
import PreferenceAccessors.Proofs.Grouping

/-!
What a pass goes through: the annotated fields of the classes in order, and after
them the config lines. An item offends by what it is, when a field cannot be
resolved, or by what comes before it, when its accessor has no name or the name
is taken in its group. Routing stops exactly at the first item that offends.
-/

namespace PreferenceAccessors

def ElementSource.annotatedFields (source : ElementSource) : List (SourceRoot × Field) :=
  source.flatMap fun
    | some root =>
      if root.kind = .classElement then
        root.fields.filterMap fun
          | some f => if f.kind = .fieldElement ∧ f.annotations ≠ [] then some (root, f) else none
          | none => none
      else []
    | none => []

theorem ElementSource.outcomes_eq (source : ElementSource) :
    source.outcomes = source.annotatedFields.map fun p => p.1.resolve p.2 := by
  unfold outcomes annotatedFields
  rw [List.map_flatMap]
  congr 1
  funext root
  cases root with
  | none => rfl
  | some root =>
    by_cases hk : root.kind = .classElement
    · simp only [if_pos hk, List.map_filterMap]
      congr 1
      funext field
      cases field with
      | none => rfl
      | some f =>
        by_cases hf : f.kind = .fieldElement <;> by_cases ha : f.annotations = [] <;>
          simp [SourceRoot.declare, hf, ha]
    · simp only [if_neg hk, List.map_nil]

theorem ElementSource.annotations_ne_nil {source : ElementSource} {p : SourceRoot × Field}
    (h : p ∈ source.annotatedFields) : p.2.annotations ≠ [] := by
  obtain ⟨root, -, hp⟩ := List.mem_flatMap.mp h
  cases root with
  | none => simp at hp
  | some root =>
    by_cases hk : root.kind = .classElement
    · simp only [if_pos hk] at hp
      obtain ⟨field, -, hfield⟩ := List.mem_filterMap.mp hp
      cases field with
      | none => simp at hfield
      | some f =>
        simp only [Option.ite_none_right_eq_some, Option.some.injEq] at hfield
        obtain ⟨⟨-, ha⟩, rfl⟩ := hfield
        exact ha
    · simp [hk] at hp

theorem ElementSource.map_declare (source : ElementSource) :
    source.annotatedFields.map (fun p => p.1.declare p.2) = source.outcomes.map some := by
  rw [outcomes_eq, List.map_map]
  apply List.map_congr_left
  intro p hp
  simp [SourceRoot.declare, annotations_ne_nil hp]

/-- What a pass goes through: an annotated field of a class or a config line. -/
inductive Item
  | member (root : SourceRoot) (f : Field)
  | line (d : Declaration)

def itemsOf (source : ElementSource) (config : Config) : List Item :=
  source.annotatedFields.map (fun p => .member p.1 p.2) ++ config.declarations.map .line

namespace Item

def outcome : Item → Except PassError Declaration
  | member root f => root.resolve f
  | line d => .ok d

def declaration? (item : Item) : Option Declaration :=
  item.outcome.toOption

theorem map_outcome_itemsOf (source : ElementSource) (config : Config) :
    (itemsOf source config).map outcome =
      source.outcomes ++ config.declarations.map .ok := by
  rw [itemsOf, ElementSource.outcomes_eq, List.map_append, List.map_map, List.map_map]
  rfl

theorem declaration?_eq_some {item : Item} {d : Declaration} :
    item.declaration? = some d ↔ item.outcome = .ok d := by
  unfold declaration?
  cases item.outcome <;> simp [Except.toOption]

theorem filterMap_declaration? {items : List Item} {ds : List Declaration}
    (h : items.map outcome = ds.map .ok) : items.filterMap declaration? = ds := by
  have hmap : items.filterMap declaration? = (items.map outcome).filterMap Except.toOption := by
    rw [List.filterMap_map]
    rfl
  rw [hmap, h, List.filterMap_map]
  exact List.filterMap_some

end Item

def Item.IsUnsupported : Item → Prop
  | .member _ f => ∀ kind : Kind, f.annotation? kind.name = none
  | .line _ => False

def Item.IsInvalid : Item → Prop
  | .member root f => ∃ kind a refusal,
      f.firstAnnotation? = some (kind, a) ∧ root.validate f kind a = .error refusal
  | .line _ => False

/-- How an item offends after others, and with what error. -/
inductive Offence (before : List Item) : Item → PassError → Prop
  | unsupported {root : SourceRoot} {f : Field}
      (h : ∀ kind : Kind, f.annotation? kind.name = none) :
      Offence before (.member root f) (.unsupported (root.sourceField f) f.tags)
  | invalid {root : SourceRoot} {f : Field} {kind : Kind} {a : Annotation} {refusal : Refusal}
      (hfirst : f.firstAnnotation? = some (kind, a))
      (hrefused : root.validate f kind a = .error refusal) :
      Offence before (.member root f) (.invalid kind (root.sourceField f) refusal)
  | unnamed {item : Item} {d : Declaration} (hd : item.declaration? = some d)
      (hname : d.accessor = "") : Offence before item (.unnamed d.key d.source)
  | duplicate {item : Item} {d e : Declaration} (hd : item.declaration? = some d)
      (hname : d.accessor ≠ "") (he : e ∈ before.filterMap Item.declaration?)
      (hclash : e.Clashes d) :
      Offence before item (.duplicate d.key d.source d.accessor d.groupName)

theorem Field.firstAnnotation?_eq_none {f : Field} :
    f.firstAnnotation? = none ↔ ∀ kind : Kind, f.annotation? kind.name = none := by
  simp only [firstAnnotation?, List.findSome?_eq_none_iff, Option.map_eq_none_iff]
  exact ⟨fun h kind => h kind kind.mem_all, fun h kind _ => h kind⟩

theorem SourceRoot.resolve_of_none {root : SourceRoot} {f : Field}
    (h : f.firstAnnotation? = none) :
    root.resolve f = .error (.unsupported (root.sourceField f) f.tags) := by
  unfold resolve
  rw [h]

theorem SourceRoot.resolve_of_some {root : SourceRoot} {f : Field} {kind : Kind} {a : Annotation}
    (h : f.firstAnnotation? = some (kind, a)) :
    root.resolve f = (root.validate f kind a).mapError (.invalid kind (root.sourceField f)) := by
  unfold resolve
  rw [h]

theorem offence_of_error {before : List Item} {item : Item} {e : PassError}
    (h : item.outcome = .error e) : Offence before item e := by
  cases item with
  | line d => exact nomatch h
  | member root f =>
    change root.resolve f = .error e at h
    cases hfirst : f.firstAnnotation? with
    | none =>
      rw [SourceRoot.resolve_of_none hfirst] at h
      rw [← Except.error.inj h]
      exact .unsupported (Field.firstAnnotation?_eq_none.mp hfirst)
    | some first =>
      obtain ⟨kind, a⟩ := first
      rw [SourceRoot.resolve_of_some hfirst] at h
      cases hv : root.validate f kind a with
      | ok d => simp [hv, Except.mapError] at h
      | error refusal =>
        rw [hv] at h
        rw [← Except.error.inj h]
        exact .invalid hfirst hv

/-- An item offends exactly with the fault of its outcome after the declarations before it. -/
theorem offence_iff {before : List Item} {item : Item} {e : PassError} :
    Offence before item e ↔
      Declaration.faultOf? (before.filterMap Item.declaration?) item.outcome = some e := by
  constructor
  · intro h
    cases h with
    | unsupported h =>
      simp only [Item.outcome,
        SourceRoot.resolve_of_none (Field.firstAnnotation?_eq_none.mpr h)]
      rfl
    | invalid hfirst hrefused =>
      simp only [Item.outcome, SourceRoot.resolve_of_some hfirst, hrefused]
      rfl
    | unnamed hd hname =>
      rw [Item.declaration?_eq_some.mp hd]
      simp only [Declaration.faultOf?, Declaration.fault?, if_pos hname]
    | duplicate hd hname he hclash =>
      rw [Item.declaration?_eq_some.mp hd]
      simp only [Declaration.faultOf?, Declaration.fault?, if_neg hname]
      exact if_pos ⟨_, he, hclash⟩
  · intro h
    cases ho : item.outcome with
    | error e' =>
      rw [ho] at h
      rw [← Option.some.inj h]
      exact offence_of_error ho
    | ok d =>
      rw [ho] at h
      have hd := Item.declaration?_eq_some.mpr ho
      simp only [Declaration.faultOf?, Declaration.fault?] at h
      split_ifs at h with hname hclash
      · rw [← Option.some.inj h]
        exact .unnamed hd hname
      · obtain ⟨e', he, hc⟩ := hclash
        rw [← Option.some.inj h]
        exact .duplicate hd hname he hc

end PreferenceAccessors
