import PreferenceAccessors.Proofs.Collection
import PreferenceAccessors.Proofs.ConfigReading
import PreferenceAccessors.Proofs.Writing

/-!
One pass of a session that is not complete. Either every item has a declaration
and none offends, and then the table is the group-by of the declarations and
every group of it is put to the sink once; or the pass is refused with the error
of the first item that offends, and the sink is not asked for anything.
-/

namespace PreferenceAccessors

def FirstOffence (items : List Item) (e : PassError) : Prop :=
  ∃ before item after, items = before ++ item :: after ∧ Offence before item e ∧
    ∀ pre x post e', before = pre ++ x :: post → ¬ Offence pre x e'

/-- A field that no known annotation or no valid one resolves, a declaration without an accessor
name, or two declarations at different places with one accessor in one group. -/
def SomeOffence (items : List Item) : Prop :=
  (∃ item ∈ items, item.IsUnsupported) ∨ (∃ item ∈ items, item.IsInvalid) ∨
  (∃ d ∈ items.filterMap Item.declaration?, d.accessor = "") ∨
  ∃ (i j : ℕ) (d e : Declaration), i < j ∧
    (items.filterMap Item.declaration?)[i]? = some d ∧
    (items.filterMap Item.declaration?)[j]? = some e ∧ d.Clashes e

theorem FirstOffence.someOffence {items : List Item} {e : PassError} (h : FirstOffence items e) :
    SomeOffence items := by
  obtain ⟨before, item, after, rfl, hoff, -⟩ := h
  have hitem : item ∈ before ++ item :: after := List.mem_append_right _ List.mem_cons_self
  cases hoff with
  | unsupported h => exact .inl ⟨_, hitem, h⟩
  | invalid hfirst hrefused => exact .inr (.inl ⟨_, hitem, _, _, _, hfirst, hrefused⟩)
  | unnamed hd hname =>
    exact .inr (.inr (.inl ⟨_, List.mem_filterMap.mpr ⟨item, hitem, hd⟩, hname⟩))
  | @duplicate _ d e hd _ he hclash =>
    obtain ⟨i, hi⟩ := List.mem_iff_getElem?.mp he
    have hlt : i < (before.filterMap Item.declaration?).length :=
      (List.getElem?_eq_some_iff.mp hi).1
    refine .inr (.inr (.inr ⟨i, _, e, d, hlt, ?_, ?_, hclash⟩))
    · rw [List.filterMap_append, List.getElem?_append_left hlt, hi]
    · rw [List.filterMap_append, List.filterMap_cons_some hd]
      simp

theorem not_someOffence {items : List Item} {ds : List Declaration}
    (hitems : items.map Item.outcome = ds.map .ok) (hfree : Faultless ds) :
    ¬ SomeOffence items := by
  have hdecl := Item.filterMap_declaration? hitems
  have hsome : ∀ item ∈ items, ∃ d, item.outcome = .ok d := by
    intro item hitem
    have hmem : item.outcome ∈ ds.map .ok := hitems ▸ List.mem_map_of_mem hitem
    obtain ⟨d, -, hd⟩ := List.mem_map.mp hmem
    exact ⟨d, hd.symm⟩
  rintro (⟨item, hitem, h⟩ | ⟨item, hitem, h⟩ | ⟨d, hd, hname⟩ | ⟨i, j, d, e, hij, hi, hj, hclash⟩)
  · obtain ⟨d, hd⟩ := hsome item hitem
    cases item with
    | line _ => exact h
    | member root f =>
      simp [Item.outcome, SourceRoot.resolve_of_none (Field.firstAnnotation?_eq_none.mpr h)] at hd
  · obtain ⟨d, hd⟩ := hsome item hitem
    cases item with
    | line _ => exact h
    | member root f =>
      obtain ⟨kind, a, refusal, hfirst, hrefused⟩ := h
      simp [Item.outcome, SourceRoot.resolve_of_some hfirst, hrefused, Except.mapError] at hd
  · rw [hdecl] at hd
    exact hfree.named d hd hname
  · rw [hdecl] at hi hj
    obtain ⟨hi', rfl⟩ := List.getElem?_eq_some_iff.mp hi
    obtain ⟨hj', rfl⟩ := List.getElem?_eq_some_iff.mp hj
    exact List.pairwise_iff_getElem.mp hfree.distinct i j hi' hj' hij hclash

theorem not_offence_of_faultless {items : List Item} {ds : List Declaration}
    (hitems : items.map Item.outcome = ds.map .ok) (hfree : Faultless ds) :
    ∀ pre x post e, items = pre ++ x :: post → ¬ Offence pre x e := by
  rintro pre x post e rfl hoff
  rw [List.map_append, List.map_cons, eq_comm] at hitems
  obtain ⟨ds₁, tail, rfl, hpre, htail⟩ := List.map_eq_append_iff.mp hitems
  obtain ⟨d, ds₂, rfl, hd, -⟩ := List.map_eq_cons_iff.mp htail
  have hfault := offence_iff.mp hoff
  rw [Item.filterMap_declaration? hpre.symm, ← hd] at hfault
  rw [List.append_cons] at hfree
  exact absurd ((faultless_concat.mp hfree.of_append).2.symm.trans hfault) (by simp)

/-- Every item has a declaration, none offends, and the table is their group-by. -/
def PassesWith (items : List Item) (routed : GroupTable × Option PassError)
    (ds : List Declaration) : Prop :=
  items.map Item.outcome = ds.map .ok ∧ Faultless ds ∧ routed = (.ofDeclarations ds, none)

/-- Routing the items of a pass ends with the table of all or with the first offence. -/
theorem routeAll_items (items : List Item) :
    (∃ ds, PassesWith items (GroupTable.empty.routeAll (items.map Item.outcome)).value ds) ∨
      ∃ e, FirstOffence items e ∧
        (GroupTable.empty.routeAll (items.map Item.outcome)).value.2 = some e := by
  have hcovers : GroupTable.Covers [] [] := fun _ h => absurd h List.not_mem_nil
  rcases GroupTable.routeAll_grouped hcovers faultless_nil (items.map Item.outcome) with h | h
  · obtain ⟨ds, hitems, hfree, hvalue⟩ := h
    left
    exact ⟨ds, hitems, hfree, hvalue⟩
  · obtain ⟨ds, outcome, tail, e, hitems, hfree, hfault, hvalue⟩ := h
    obtain ⟨before, rest, rfl, hbefore, hrest⟩ := List.map_eq_append_iff.mp hitems
    obtain ⟨item, after, rfl, houtcome, -⟩ := List.map_eq_cons_iff.mp hrest
    right
    refine ⟨e, ⟨before, item, after, rfl, ?_, not_offence_of_faultless hbefore hfree⟩, hvalue⟩
    rw [offence_iff, Item.filterMap_declaration? hbefore, houtcome]
    exact hfault

def Notice.IsCalm (n : Notice) : Prop :=
  n.level? ≠ some .error ∧ ∀ qualified, n ≠ .sinkAsked qualified

theorem filter_error_of_calm {log : List Notice} (h : ∀ n ∈ log, n.IsCalm) :
    log.filter (·.level? = some .error) = [] := by
  rw [List.filter_eq_nil_iff]
  intro n hn
  simpa using (h n hn).1

theorem Config.Tells.isCalm {n : Notice} (h : Config.Tells n) : n.IsCalm := by
  cases h <;> exact ⟨by simp [Notice.level?], by simp⟩

namespace Session

section LoadConfig
variable {s : Session} {resources : Resources}

theorem loadConfig_refused {reason : String} (h : resources s.configName = .refused reason) :
    s.loadConfig (some resources) =
      ⟨.empty, [.resourceAsked s.configName, .configRefused s.configName reason]⟩ := by
  simp only [loadConfig, h]
  rfl

theorem loadConfig_absent (h : resources s.configName = .absent) :
    s.loadConfig (some resources) =
      ⟨.empty, [.resourceAsked s.configName, .configAbsent s.configName]⟩ := by
  simp only [loadConfig, h]
  rfl

theorem loadConfig_handed {reading : Reading} (h : resources s.configName = .handed reading) :
    s.loadConfig (some resources) = ⟨(Config.ofReading reading).value,
      .resourceAsked s.configName :: .resourceHanded s.configName ::
        ((Config.ofReading reading).log ++ [.resourceClosed s.configName])⟩ := by
  simp only [loadConfig, h]
  rfl

end LoadConfig

theorem loadConfig_log (s : Session) (resources : Option Resources) :
    ∀ n ∈ (s.loadConfig resources).log, n.IsCalm := by
  cases resources with
  | none => simp [loadConfig]
  | some resources =>
    cases h : resources s.configName with
    | refused reason => simp [loadConfig_refused h, Notice.IsCalm, Notice.level?]
    | absent => simp [loadConfig_absent h, Notice.IsCalm, Notice.level?]
    | handed reading =>
      rw [loadConfig_handed h]
      simp only [List.mem_cons, List.mem_append, List.not_mem_nil, or_false]
      rintro n (rfl | rfl | hn | rfl)
      · exact ⟨by simp [Notice.level?], by simp⟩
      · exact ⟨by simp [Notice.level?], by simp⟩
      · exact (Config.ofReading_tells reading n hn).isCalm
      · exact ⟨by simp [Notice.level?], by simp⟩

def items (s : Session) (source : ElementSource) (resources : Option Resources) : List Item :=
  itemsOf source (s.loadConfig resources).value

def packageFor (s : Session) (resources : Option Resources) : String :=
  (s.loadConfig resources).value.package.getD s.package

def routing (s : Session) (source : ElementSource) (resources : Option Resources) :
    Logged (GroupTable × Option PassError) :=
  GroupTable.empty.routeAll ((s.items source resources).map Item.outcome)

section Run
variable {σ : Type} {s : Session} (source : ElementSource) (resources : Option Resources)
  (sink : Sink σ) (state : σ)

theorem run_idle (hs : s.completed = false) :
    s.run source resources sink state = (do
      let _ ← s.loadConfig resources
      let (groups, e) ← s.routing source resources
      match e with
      | some e => pure ⟨{ s with groups := .empty }, state, .error (.refused e)⟩
      | none =>
        let package := s.packageFor resources
        Logged.tell (.writing groups.groups.length package)
        let (outcome, state) ← sink.writeGroups groups package state
        match outcome with
        | .ok names => pure ⟨⟨s.configName, package, groups, true⟩, state, .ok names⟩
        | .error cause =>
          pure ⟨⟨s.configName, package, groups, false⟩, state, .error (.malformed cause)⟩) := by
  unfold run routing items packageFor
  rw [Item.map_outcome_itemsOf, hs]
  rfl

theorem run_completed (hs : s.completed = true) :
    s.run source resources sink state = ⟨⟨s, state, .ok []⟩, [.passSkipped]⟩ := by
  unfold run
  rw [hs]
  rfl

theorem run_of_refused (hs : s.completed = false) {e : PassError}
    (h : (s.routing source resources).value.2 = some e) :
    (s.run source resources sink state).value =
        ⟨{ s with groups := .empty }, state, .error (.refused e)⟩ ∧
      (s.run source resources sink state).log =
        (s.loadConfig resources).log ++ (s.routing source resources).log := by
  rw [run_idle source resources sink state hs]
  simp only [Logged.bind_value, Logged.bind_log, h]
  exact ⟨rfl, by simp⟩

theorem run_of_routed (hs : s.completed = false) {groups : GroupTable}
    (h : (s.routing source resources).value = (groups, none)) :
    (s.run source resources sink state).value =
      match (sink.writeGroups groups (s.packageFor resources) state).value with
      | (.ok names, after) =>
        ⟨⟨s.configName, s.packageFor resources, groups, true⟩, after, .ok names⟩
      | (.error cause, after) =>
        ⟨⟨s.configName, s.packageFor resources, groups, false⟩, after, .error (.malformed cause)⟩ := by
  rw [run_idle source resources sink state hs]
  simp only [Logged.bind_value, h]
  generalize (sink.writeGroups groups (s.packageFor resources) state).value = written
  rcases written with ⟨cause | names, after⟩ <;> rfl

theorem routing_cases :
    (∃ ds, PassesWith (s.items source resources) (s.routing source resources).value ds) ∨
      ∃ e, FirstOffence (s.items source resources) e ∧
        (s.routing source resources).value.2 = some e :=
  routeAll_items _

theorem outcome_of_routed (hs : s.completed = false) {groups : GroupTable}
    (h : (s.routing source resources).value = (groups, none)) (e : PassError) :
    (s.run source resources sink state).value.outcome ≠ .error (.refused e) := by
  rw [run_of_routed source resources sink state hs h]
  generalize (sink.writeGroups groups (s.packageFor resources) state).value = written
  rcases written with ⟨cause | names, after⟩ <;> simp

theorem firstOffence_of_refused (hs : s.completed = false) {e : PassError}
    (h : (s.run source resources sink state).value.outcome = .error (.refused e)) :
    FirstOffence (s.items source resources) e ∧ (s.routing source resources).value.2 = some e := by
  rcases routing_cases source resources with ⟨ds, -, -, hrouted⟩ | ⟨e', hfirst, hrouted⟩
  · exact absurd h (outcome_of_routed source resources sink state hs hrouted e)
  · rw [(run_of_refused source resources sink state hs hrouted).1] at h
    obtain rfl : e' = e := by simpa using h
    exact ⟨hfirst, hrouted⟩

theorem passesWith_of_returned (hs : s.completed = false) {names : List String}
    (h : (s.run source resources sink state).value.outcome = .ok names) :
    ∃ ds, PassesWith (s.items source resources) (s.routing source resources).value ds := by
  rcases routing_cases source resources with hpass | ⟨e, -, hrouted⟩
  · exact hpass
  · rw [(run_of_refused source resources sink state hs hrouted).1] at h
    simp at h

/-- What a run that returns leaves: the table written under the package, and the files put. -/
theorem run_of_returned (hs : s.completed = false) {groups : GroupTable} {names : List String}
    (hrouted : (s.routing source resources).value = (groups, none))
    (h : (s.run source resources sink state).value.outcome = .ok names) :
    (s.run source resources sink state).value.session =
        ⟨s.configName, s.packageFor resources, groups, true⟩ ∧
      (sink.writeGroups groups (s.packageFor resources) state).value =
        (.ok names, (s.run source resources sink state).value.sink) := by
  rw [run_of_routed source resources sink state hs hrouted] at h ⊢
  generalize (sink.writeGroups groups (s.packageFor resources) state).value = written at h ⊢
  rcases written with ⟨cause | names', after⟩
  · simp at h
  · obtain rfl : names' = names := by simpa using h
    exact ⟨rfl, rfl⟩

theorem run_log_of_refused (hs : s.completed = false) {e : PassError}
    (h : (s.routing source resources).value.2 = some e) :
    (s.run source resources sink state).log.filter (·.level? = some .error) =
        [.passRefused e.message] ∧
      ∀ name, .sinkAsked name ∉ (s.run source resources sink state).log := by
  obtain ⟨created, hlog⟩ :=
    GroupTable.routeAll_log .empty ((s.items source resources).map Item.outcome)
  change (s.routing source resources).log = _ ++ ((s.routing source resources).value.2.map _).toList
    at hlog
  have hcalm := s.loadConfig_log resources
  have hcreated : ∀ n ∈ created.map Notice.groupCreated, n.IsCalm := by
    intro n hn
    obtain ⟨name, -, rfl⟩ := List.mem_map.mp hn
    exact ⟨by simp [Notice.level?], by simp⟩
  rw [(run_of_refused source resources sink state hs h).2, hlog, h]
  constructor
  · rw [List.filter_append, List.filter_append, filter_error_of_calm hcalm,
      filter_error_of_calm hcreated]
    rfl
  · intro name hn
    rcases List.mem_append.mp hn with hn | hn
    · exact (hcalm _ hn).2 name rfl
    · rcases List.mem_append.mp hn with hn | hn
      · exact (hcreated _ hn).2 name rfl
      · simp at hn

end Run

/-- A run that returns: the annotated fields have declarations, and with those of the config
they are grouped by resolved name; each group is put once, in the order of the table, as package
line, header, fragments and closing brace; the names are those of the files that were taken. -/
theorem run_writes_groupBy {σ : Type} {s : Session} (hs : s.completed = false)
    (source : ElementSource) (resources : Option Resources) (sink : Sink σ) (state : σ)
    {names : List String}
    (h : (s.run source resources sink state).value.outcome = .ok names) :
    ∃ annotated : List Declaration,
      source.annotatedFields.map (fun p => p.1.declare p.2) = annotated.map (some ∘ .ok) ∧
      let ds := annotated ++ (s.loadConfig resources).value.declarations
      let package := s.packageFor resources
      let files := (GroupTable.ofDeclarations ds).groups.map (Group.file package)
      (∀ d ∈ ds, d.kind.emit d d.source = .ok d.fragment) ∧
      (s.run source resources sink state).value.session =
        ⟨s.configName, package, .ofDeclarations ds, true⟩ ∧
      (s.run source resources sink state).value.sink = (sink.putAll files state).2 ∧
      names = Sink.taken files (sink.putAll files state).1 := by
  obtain ⟨ds, hitems, -, hrouted⟩ := passesWith_of_returned source resources sink state hs h
  obtain ⟨hsession, hwritten⟩ := run_of_returned source resources sink state hs hrouted h
  rw [items, Item.map_outcome_itemsOf, eq_comm] at hitems
  obtain ⟨annotated, lines, rfl, hannotated, hlines⟩ := List.map_eq_append_iff.mp hitems
  have hok : Function.Injective (Except.ok : Declaration → Except PassError Declaration) :=
    fun _ _ => Except.ok.inj
  obtain rfl := hok.list_map hlines
  have hput := sink.writeAll_of_ok (congrArg Prod.fst hwritten)
  refine ⟨annotated, ?_, ?_, hsession, ?_, hput.2⟩
  · rw [ElementSource.map_declare, ← hannotated, List.map_map]
  · intro d _
    have hemit : d.kind.emit d d.source = d.kind.emit d none := by
      cases hsource : d.source <;> simp [Kind.emit, hsource]
    rw [hemit, Kind.emit_kind]
  · exact (congrArg Prod.snd hwritten).symm.trans hput.1

def Sample.source : ElementSource :=
  [none, some ⟨"A", .classElement,
    [none, some ⟨⟨"x", false⟩, .fieldElement, [("boolean", ⟨"G", none, .null⟩)]⟩,
      some ⟨⟨"y", false⟩, .fieldElement,
        [("other", ⟨"G", none, .null⟩), ("string", ⟨" ", some ⟨"k-v", false⟩, .null⟩)]⟩]⟩]

def Sample.resources : Resources :=
  fun _ => .handed (.ofText "package: a\nG,x2,true,boolean\n,z,TRUE,boolean\n")

def Sample.session : Session :=
  new "com" "prefs"

def Sample.sink : MemorySink :=
  ⟨["a.DefaultPrefHelper"], [], []⟩

theorem sample_writes_groupBy :
    Sample.session.completed = false ∧
    (Sample.session.run Sample.source (some Sample.resources) MemorySink.sink
      Sample.sink).value.outcome = .ok ["a.G"] ∧
    ∃ annotated : List Declaration,
      Sample.source.annotatedFields.map (fun p => p.1.declare p.2) =
        annotated.map (some ∘ .ok) ∧
      (Sample.session.run Sample.source (some Sample.resources) MemorySink.sink
        Sample.sink).value.session = ⟨"prefs", "a", .ofDeclarations (annotated ++
          (Sample.session.loadConfig (some Sample.resources)).value.declarations), true⟩ := by
  have h : (Sample.session.run Sample.source (some Sample.resources) MemorySink.sink
      Sample.sink).value.outcome = .ok ["a.G"] := by decide +kernel
  have hpackage : Sample.session.packageFor (some Sample.resources) = "a" := by decide +kernel
  obtain ⟨annotated, hdeclared, -, hsession, -⟩ := run_writes_groupBy rfl Sample.source
    (some Sample.resources) MemorySink.sink Sample.sink h
  exact ⟨rfl, h, annotated, hdeclared, by rw [hsession, hpackage]; rfl⟩

/-- A run is refused exactly when some item offends; the error raised is that of the first item
that does, it is the one error logged, and the sink is not asked for anything. -/
theorem run_refused_iff_offence {σ : Type} {s : Session} (hs : s.completed = false)
    (source : ElementSource) (resources : Option Resources) (sink : Sink σ) (state : σ) :
    let items := s.items source resources
    let ran := s.run source resources sink state
    ((∃ e, ran.value.outcome = .error (.refused e)) ↔ SomeOffence items) ∧
    ∀ e, ran.value.outcome = .error (.refused e) →
      FirstOffence items e ∧ ran.value.sink = state ∧
      ran.log.filter (·.level? = some .error) = [.passRefused e.message] ∧
      ∀ name, .sinkAsked name ∉ ran.log := by
  refine ⟨⟨?_, fun h => ?_⟩, fun e h => ?_⟩
  · rintro ⟨e, he⟩
    exact (firstOffence_of_refused source resources sink state hs he).1.someOffence
  · rcases routing_cases source resources with ⟨ds, hitems, hfree, -⟩ | ⟨e, -, hrouted⟩
    · exact absurd h (not_someOffence hitems hfree)
    · exact ⟨e, by rw [(run_of_refused source resources sink state hs hrouted).1]⟩
  · obtain ⟨hfirst, hrouted⟩ := firstOffence_of_refused source resources sink state hs h
    refine ⟨hfirst, ?_, run_log_of_refused source resources sink state hs hrouted⟩
    rw [(run_of_refused source resources sink state hs hrouted).1]

def Sample.clashing : ElementSource :=
  [some ⟨"A", .classElement,
    [some ⟨⟨"x", false⟩, .fieldElement, [("boolean", ⟨"G", some ⟨"a_b", false⟩, .null⟩)]⟩,
      some ⟨⟨"y", false⟩, .fieldElement, [("int", ⟨"G", some ⟨"a-b", false⟩, .null⟩)]⟩,
      some ⟨⟨"z", false⟩, .fieldElement, [("other", ⟨"G", none, .null⟩)]⟩]⟩]

theorem sample_refused_at_second_field :
    Sample.session.completed = false ∧
    (Sample.session.run Sample.clashing none MemorySink.sink .empty).value.outcome =
      .error (.refused (.duplicate "a-b" (some ⟨"A", "y"⟩) "AB" "G")) ∧
    FirstOffence (Sample.session.items Sample.clashing none)
      (.duplicate "a-b" (some ⟨"A", "y"⟩) "AB" "G") := by
  have h : (Sample.session.run Sample.clashing none MemorySink.sink .empty).value.outcome =
      .error (.refused (.duplicate "a-b" (some ⟨"A", "y"⟩) "AB" "G")) := by decide +kernel
  have hrefused := run_refused_iff_offence (s := Sample.session) rfl Sample.clashing none
    MemorySink.sink .empty
  exact ⟨rfl, h, (hrefused.2 _ h).1⟩

end Session

end PreferenceAccessors
