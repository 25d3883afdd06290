import PreferenceAccessors.Proofs.Entries
import PreferenceAccessors.Session

/-!
Group tables as a group-by. A table is determined by the names that were asked
for and the declarations that were routed: one group for each name, in order of
first asking, with the accessors of its own declarations in order. Routing keeps
this form; what it refuses is a fault of a declaration after those before it.
-/

namespace PreferenceAccessors

namespace Declaration

def groupName (d : Declaration) : String :=
  GroupTable.resolve d.group

def accessor (d : Declaration) : String :=
  accessorName d.key

/-- Two declarations that would define the same accessor of the same group. -/
def Clashes (d e : Declaration) : Prop :=
  d.groupName = e.groupName ∧ d.accessor = e.accessor

instance (d e : Declaration) : Decidable (d.Clashes e) :=
  inferInstanceAs (Decidable (_ ∧ _))

def fault? (before : List Declaration) (d : Declaration) : Option PassError :=
  if d.accessor = "" then some (.unnamed d.key d.source)
  else if ∃ e ∈ before, e.Clashes d then
    some (.duplicate d.key d.source d.accessor d.groupName)
  else none

theorem fault?_eq_none {before : List Declaration} {d : Declaration} :
    d.fault? before = none ↔ d.accessor ≠ "" ∧ ∀ e ∈ before, ¬ e.Clashes d := by
  unfold fault?
  split_ifs with h₁ h₂
  · simp [h₁]
  · obtain ⟨e, he, hc⟩ := h₂
    simp only [false_iff, not_and, not_forall]
    exact fun _ => ⟨e, he, not_not.mpr hc⟩
  · simp only [true_iff]
    exact ⟨h₁, fun e he hc => h₂ ⟨e, he, hc⟩⟩

def faultOf? (before : List Declaration) : Except PassError Declaration → Option PassError
  | .error e => some e
  | .ok d => d.fault? before

end Declaration

/-- Declarations that can be routed one after the other. -/
structure Faultless (ds : List Declaration) : Prop where
  named : ∀ d ∈ ds, d.accessor ≠ ""
  distinct : ds.Pairwise fun d e => ¬ d.Clashes e

theorem faultless_nil : Faultless [] :=
  ⟨fun _ h => absurd h List.not_mem_nil, .nil⟩

theorem Faultless.of_append {xs ys : List Declaration} (h : Faultless (xs ++ ys)) : Faultless xs :=
  ⟨fun d hd => h.named d (List.mem_append_left _ hd), (List.pairwise_append.mp h.distinct).1⟩

theorem faultless_concat {ds : List Declaration} {d : Declaration} :
    Faultless (ds ++ [d]) ↔ Faultless ds ∧ d.fault? ds = none := by
  rw [Declaration.fault?_eq_none]
  constructor
  · intro h
    have hp := List.pairwise_append.mp h.distinct
    refine ⟨⟨fun e he => h.named e (List.mem_append_left _ he), hp.1⟩, ?_, ?_⟩
    · exact h.named d (List.mem_append_right _ (List.mem_singleton.mpr rfl))
    · exact fun e he => hp.2.2 e he d (List.mem_singleton.mpr rfl)
  · rintro ⟨h, hne, hnew⟩
    constructor
    · intro e he
      rcases List.mem_append.mp he with he | he
      · exact h.named e he
      · exact List.mem_singleton.mp he ▸ hne
    · refine List.pairwise_append.mpr ⟨h.distinct, List.pairwise_singleton _ _, ?_⟩
      intro e he d' hd'
      exact List.mem_singleton.mp hd' ▸ hnew e he

def Group.ofDeclarations (name : String) (ds : List Declaration) : Group :=
  ⟨name, ds.map Declaration.fragment, ds.map Declaration.accessor⟩

def membersOf (ds : List Declaration) (name : String) : List Declaration :=
  ds.filter (·.groupName = name)

theorem groupName_of_mem_membersOf {ds : List Declaration} {d : Declaration} {name : String}
    (h : d ∈ membersOf ds name) : d.groupName = name := by
  simpa using (List.mem_filter.mp h).2

theorem Faultless.members {ds : List Declaration} (h : Faultless ds) (name : String) :
    Faultless (membersOf ds name) :=
  ⟨fun d hd => h.named d (List.mem_of_mem_filter hd), h.distinct.filter _⟩

theorem membersOf_append_self (ds : List Declaration) (d : Declaration) :
    membersOf (ds ++ [d]) d.groupName = membersOf ds d.groupName ++ [d] := by
  simp [membersOf]

theorem membersOf_append_of_ne {d : Declaration} {name : String} (ds : List Declaration)
    (h : name ≠ d.groupName) : membersOf (ds ++ [d]) name = membersOf ds name := by
  simp [membersOf, h.symm]

theorem Group.hasAccessor_ofDeclarations (ds : List Declaration) (d : Declaration) :
    (ofDeclarations d.groupName (membersOf ds d.groupName)).hasAccessor d.accessor = true ↔
      ∃ e ∈ ds, e.Clashes d := by
  simp only [hasAccessor, ofDeclarations, membersOf, List.contains_eq_mem, List.mem_map,
    List.mem_filter, decide_eq_true_eq, Declaration.Clashes]
  exact exists_congr fun e => and_assoc

theorem Group.append_of_new {g : Group} {accessor : String} (fragment : String)
    (hne : accessor ≠ "") (hnew : accessor ∉ g.accessors) :
    g.append fragment (some accessor) =
      ⟨g.name, g.fragments ++ [fragment], g.accessors ++ [accessor]⟩ := by
  simp [append, hne, hnew]

theorem Group.append_ofDeclarations {name : String} {ds : List Declaration} {d : Declaration}
    (hne : d.accessor ≠ "") (hnew : d.accessor ∉ ds.map Declaration.accessor) :
    (ofDeclarations name ds).append d.fragment (some d.accessor) =
      ofDeclarations name (ds ++ [d]) := by
  rw [append_of_new d.fragment hne hnew]
  simp only [ofDeclarations, List.map_append, List.map_cons, List.map_nil]

namespace GroupTable

theorem find?_eq_none_iff {t : GroupTable} {name : String} :
    t.find? name = none ↔ name ∉ t.names := by
  simp only [find?, names, List.find?_eq_none, beq_iff_eq, List.mem_map, not_exists, not_and]

theorem name_of_find? {t : GroupTable} {name : String} {g : Group} (h : t.find? name = some g) :
    g.name = name := by
  have hfound := List.find?_some h
  exact beq_iff_eq.mp hfound

theorem names_ensure (t : GroupTable) (name : String) :
    (t.ensure name).value.2.names =
      if resolve name ∈ t.names then t.names else t.names ++ [resolve name] := by
  unfold ensure
  cases hfind : t.find? (resolve name) with
  | none =>
    rw [if_neg (find?_eq_none_iff.mp hfind)]
    exact List.map_append
  | some g =>
    have hmem : resolve name ∈ t.names :=
      List.mem_map.mpr ⟨g, List.mem_of_find?_eq_some hfind, name_of_find? hfind⟩
    rw [if_pos hmem]
    rfl

section Tabulated
variable {f : String → Group} (hf : ∀ name, (f name).name = name)
include hf

theorem names_tabulated (names : List String) :
    GroupTable.names ⟨names.map f⟩ = names := by
  simp only [GroupTable.names, List.map_map, Function.comp_def, hf, List.map_id']

theorem find?_tabulated (names : List String) (name : String) :
    find? ⟨names.map f⟩ name = if name ∈ names then some (f name) else none := by
  split_ifs with h
  · obtain ⟨g, hfound⟩ := Option.ne_none_iff_exists'.mp fun hnone =>
      find?_eq_none_iff.mp hnone (names_tabulated hf names ▸ h)
    obtain ⟨other, -, rfl⟩ := List.mem_map.mp (List.mem_of_find?_eq_some hfound)
    rw [hfound, (hf other).symm.trans (name_of_find? hfound)]
  · rwa [find?_eq_none_iff, names_tabulated hf]

theorem append_tabulated (names : List String) (name fragment : String)
    (accessor : Option String) :
    append ⟨names.map f⟩ name fragment accessor = ⟨names.map fun other =>
      if other = name then (f other).append fragment accessor else f other⟩ := by
  simp only [append, modify, List.map_map, Function.comp_def, hf]

end Tabulated

/-- One group for each name asked for, in order of first asking, with its own declarations. -/
def grouped (asked : List String) (ds : List Declaration) : GroupTable :=
  ⟨asked.eraseDups.map fun name => .ofDeclarations name (membersOf ds name)⟩

def ofDeclarations (ds : List Declaration) : GroupTable :=
  grouped (ds.map Declaration.groupName) ds

theorem names_grouped (asked : List String) (ds : List Declaration) :
    (grouped asked ds).names = asked.eraseDups :=
  names_tabulated (fun _ => rfl) _

theorem find?_grouped_of_mem {asked : List String} {name : String} (ds : List Declaration)
    (h : name ∈ asked) :
    (grouped asked ds).find? name = some (.ofDeclarations name (membersOf ds name)) := by
  rw [grouped, find?_tabulated (fun _ => rfl), if_pos (List.mem_eraseDups.mpr h)]

theorem find?_grouped_of_not_mem {asked : List String} {name : String} (ds : List Declaration)
    (h : name ∉ asked) : (grouped asked ds).find? name = none := by
  rw [grouped, find?_tabulated (fun _ => rfl), if_neg (mt List.mem_eraseDups.mp h)]

def Covers (asked : List String) (ds : List Declaration) : Prop :=
  ∀ d ∈ ds, d.groupName ∈ asked

theorem Covers.membersOf_eq_nil {asked : List String} {ds : List Declaration} {name : String}
    (hc : Covers asked ds) (h : name ∉ asked) : membersOf ds name = [] := by
  simp only [membersOf, List.filter_eq_nil_iff, decide_eq_true_eq]
  intro d hd heq
  exact h (heq ▸ hc d hd)

theorem Covers.concat {asked : List String} {ds : List Declaration} {d : Declaration}
    (hc : Covers asked ds) : Covers (asked ++ [d.groupName]) (ds ++ [d]) := by
  intro e he
  rcases List.mem_append.mp he with he | he
  · exact List.mem_append_left _ (hc e he)
  · rw [List.mem_singleton.mp he]
    exact List.mem_append_right _ (List.mem_singleton.mpr rfl)

theorem ensure_grouped {asked : List String} {ds : List Declaration} (hc : Covers asked ds)
    (name : String) :
    ((grouped asked ds).ensure name).value =
      (.ofDeclarations (resolve name) (membersOf ds (resolve name)),
        grouped (asked ++ [resolve name]) ds) := by
  unfold ensure
  by_cases h : resolve name ∈ asked
  · rw [find?_grouped_of_mem ds h]
    simp only [Logged.pure_value, grouped, eraseDups_concat, if_pos h]
  · rw [find?_grouped_of_not_mem ds h]
    simp only [Logged.bind_value, Logged.pure_value, grouped, eraseDups_concat, if_neg h,
      List.map_append, List.map_cons, List.map_nil, hc.membersOf_eq_nil h]
    rfl

theorem append_grouped {ds : List Declaration} {d : Declaration} (asked : List String)
    (hf : d.fault? ds = none) :
    (grouped asked ds).append d.groupName d.fragment (some d.accessor) =
      grouped asked (ds ++ [d]) := by
  obtain ⟨hne, hnew⟩ := Declaration.fault?_eq_none.mp hf
  rw [grouped, append_tabulated fun _ => rfl]
  congr 1
  apply List.map_congr_left
  intro name _
  by_cases h : name = d.groupName
  · subst h
    have hnot : d.accessor ∉ (membersOf ds d.groupName).map Declaration.accessor := by
      intro hmem
      have hex := (Group.hasAccessor_ofDeclarations ds d).mp
        (by simpa [Group.hasAccessor, Group.ofDeclarations] using hmem)
      obtain ⟨e, he, hclash⟩ := hex
      exact hnew e he hclash
    rw [membersOf_append_self, ← Group.append_ofDeclarations hne hnot]
    exact if_pos rfl
  · rw [membersOf_append_of_ne ds h]
    exact if_neg h

theorem route_value (t : GroupTable) (d : Declaration) :
    (t.route d).value =
      let (group, t) := (t.ensure d.group).value
      if d.accessor = "" then (t, some (.unnamed d.key d.source))
      else if group.hasAccessor d.accessor then
        (t, some (.duplicate d.key d.source d.accessor group.name))
      else (t.append group.name d.fragment (some d.accessor), none) := by
  unfold route Declaration.accessor
  simp only [Logged.bind_value]
  split_ifs <;> rfl

/-- One step: a declaration with a fault is refused with it, any other joins the table. -/
theorem route_grouped {asked : List String} {ds : List Declaration} (hc : Covers asked ds)
    (d : Declaration) :
    ((grouped asked ds).route d).value =
      match d.fault? ds with
      | some e => (grouped (asked ++ [d.groupName]) ds, some e)
      | none => (grouped (asked ++ [d.groupName]) (ds ++ [d]), none) := by
  rw [route_value, ensure_grouped hc]
  by_cases h₁ : d.accessor = ""
  · simp only [Declaration.fault?, if_pos h₁]
    rfl
  · by_cases h₂ : ∃ e ∈ ds, e.Clashes d
    · have hhas := (Group.hasAccessor_ofDeclarations ds d).mpr h₂
      simp only [Declaration.fault?, if_neg h₁, if_pos h₂]
      exact if_pos hhas
    · have hhas := mt (Group.hasAccessor_ofDeclarations ds d).mp h₂
      have hf : d.fault? ds = none := by
        simp only [Declaration.fault?, if_neg h₁, if_neg h₂]
      simp only [hf, if_neg h₁]
      rw [← append_grouped _ hf]
      exact if_neg hhas

def AllRouted (asked : List String) (ds : List Declaration)
    (items : List (Except PassError Declaration)) : Prop :=
  ∃ new : List Declaration, items = new.map .ok ∧ Faultless (ds ++ new) ∧
    ((grouped asked ds).routeAll items).value =
      (grouped (asked ++ new.map Declaration.groupName) (ds ++ new), none)

def RefusedAt (asked : List String) (ds : List Declaration)
    (items : List (Except PassError Declaration)) : Prop :=
  ∃ (new : List Declaration) (item : Except PassError Declaration)
    (rest : List (Except PassError Declaration)) (e : PassError),
    items = new.map .ok ++ item :: rest ∧ Faultless (ds ++ new) ∧
      Declaration.faultOf? (ds ++ new) item = some e ∧
      ((grouped asked ds).routeAll items).value.2 = some e

/-- A run: the outcomes are routed up to the first that has a fault after those before it. -/
theorem routeAll_grouped {asked : List String} {ds : List Declaration} (hc : Covers asked ds)
    (hd : Faultless ds) (items : List (Except PassError Declaration)) :
    AllRouted asked ds items ∨ RefusedAt asked ds items := by
  induction items generalizing asked ds with
  | nil =>
    left
    exact ⟨[], rfl, by simpa using hd, by simp [routeAll]⟩
  | cons item rest ih =>
    cases item with
    | error e =>
      right
      exact ⟨[], .error e, rest, e, rfl, by simpa using hd, rfl, rfl⟩
    | ok d =>
      have hstep := route_grouped hc d
      cases hf : d.fault? ds with
      | some e =>
        rw [hf] at hstep
        right
        refine ⟨[], .ok d, rest, e, rfl, by simpa using hd, by simpa [Declaration.faultOf?], ?_⟩
        simp [routeAll, hstep]
      | none =>
        rw [hf] at hstep
        have hrest : ((grouped asked ds).routeAll (.ok d :: rest)).value =
            ((grouped (asked ++ [d.groupName]) (ds ++ [d])).routeAll rest).value := by
          simp [routeAll, hstep]
        rcases ih hc.concat (faultless_concat.mpr ⟨hd, hf⟩) with h | h
        · obtain ⟨new, hitems, hfree, hvalue⟩ := h
          left
          refine ⟨d :: new, by simp [hitems], by simpa using hfree, ?_⟩
          rw [hrest, hvalue]
          simp
        · obtain ⟨new, item, tail, e, hitems, hfree, hfault, hvalue⟩ := h
          right
          refine ⟨d :: new, item, tail, e, by simp [hitems], by simpa using hfree,
            by simpa using hfault, ?_⟩
          rw [hrest, hvalue]

theorem route_log (t : GroupTable) (d : Declaration) :
    ∃ created : List String, (t.route d).log = created.map .groupCreated ++
      ((t.route d).value.2.map fun e => .passRefused e.message).toList := by
  obtain ⟨created, hensure⟩ : ∃ created : List String,
      (t.ensure d.group).log = created.map .groupCreated := by
    unfold ensure
    split
    · exact ⟨[], rfl⟩
    · exact ⟨[resolve d.group], rfl⟩
  refine ⟨created, ?_⟩
  rw [← hensure]
  unfold route
  simp only [Logged.bind_log, Logged.bind_value]
  split_ifs <;> rfl

theorem routeAll_log (t : GroupTable) (items : List (Except PassError Declaration)) :
    ∃ created : List String, (t.routeAll items).log = created.map .groupCreated ++
      ((t.routeAll items).value.2.map fun e => .passRefused e.message).toList := by
  induction items generalizing t with
  | nil => exact ⟨[], rfl⟩
  | cons item rest ih =>
    cases item with
    | error e => exact ⟨[], rfl⟩
    | ok d =>
      obtain ⟨created, hlog⟩ := route_log t d
      simp only [routeAll, Logged.bind_log, Logged.bind_value]
      cases hr : (t.route d).value.2 with
      | some e => exact ⟨created, by rw [hlog, hr]; simp⟩
      | none =>
        obtain ⟨more, hmore⟩ := ih (t.route d).value.1
        refine ⟨created ++ more, ?_⟩
        rw [hlog, hr, hmore]
        simp

end GroupTable

end PreferenceAccessors
