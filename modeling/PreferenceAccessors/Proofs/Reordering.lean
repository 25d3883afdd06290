import PreferenceAccessors.Proofs.ConfigReading
import PreferenceAccessors.Proofs.Routed

/-!
Passes over one input in two orders. Classes, the members of a class and the config
lines behind the package directive may change places. Whether a pass is refused
does not depend on that, since no two declarations of it may clash in either order;
and passes that return use one package and write the same files, each with the
same header and the same fragments in some order.
-/

namespace PreferenceAccessors

/-- The same things, up to their order and a relation between them. -/
def SameUpTo {α : Type} (R : α → α → Prop) (xs ys : List α) : Prop :=
  ∃ middle, xs.Perm middle ∧ List.Forall₂ R middle ys

theorem SameUpTo.map_perm {α β : Type} {R : α → α → Prop} {xs ys : List α} {f : α → β}
    (h : SameUpTo R xs ys) (hf : ∀ x y, R x y → f x = f y) : (xs.map f).Perm (ys.map f) := by
  obtain ⟨middle, hperm, hrel⟩ := h
  have hmap : middle.map f = ys.map f := by
    clear hperm
    induction hrel with
    | nil => rfl
    | cons hxy _ ih => simp [hf _ _ hxy, ih]
  exact hmap ▸ hperm.map f

structure SourceRoot.Reordered (r r' : SourceRoot) : Prop where
  name : r.name = r'.name
  kind : r.kind = r'.kind
  fields : r.fields.Perm r'.fields

theorem SourceRoot.declare_congr {r r' : SourceRoot} (h : r.name = r'.name) (f : Field) :
    r.declare f = r'.declare f := by
  unfold declare resolve validate sourceField
  rw [h]

namespace ElementSource

def Reordered (source source' : ElementSource) : Prop :=
  SameUpTo (Option.Rel SourceRoot.Reordered) source source'

theorem outcomes_perm_of_forall₂ {source source' : ElementSource}
    (h : List.Forall₂ (Option.Rel SourceRoot.Reordered) source source') :
    source.outcomes.Perm source'.outcomes := by
  induction h with
  | nil => exact .refl _
  | cons hroot _ ih =>
    simp only [outcomes, List.flatMap_cons]
    refine List.Perm.append ?_ ih
    cases hroot with
    | none => exact .refl _
    | some h =>
      dsimp only
      rw [h.kind]
      split_ifs
      · simp only [SourceRoot.declare_congr h.name]
        exact h.fields.filterMap _
      · exact .refl _

theorem Reordered.outcomes_perm {source source' : ElementSource} (h : source.Reordered source') :
    source.outcomes.Perm source'.outcomes := by
  obtain ⟨middle, hperm, hrel⟩ := h
  exact (hperm.flatMap_right _).trans (outcomes_perm_of_forall₂ hrel)

end ElementSource

theorem Faultless.perm {ds ds' : List Declaration} (h : Faultless ds) (hperm : ds.Perm ds') :
    Faultless ds' := by
  refine ⟨fun d hd => h.named d (hperm.mem_iff.mpr hd), ?_⟩
  refine (hperm.pairwise_iff ?_).mp h.distinct
  exact fun hno hclash => hno ⟨hclash.1.symm, hclash.2.symm⟩

def Routable (outcomes : List (Except PassError Declaration)) : Prop :=
  ∃ ds : List Declaration, outcomes = ds.map .ok ∧ Faultless ds

theorem exists_perm_of_map_ok {ds : List Declaration}
    {outcomes : List (Except PassError Declaration)} (h : (ds.map .ok).Perm outcomes) :
    ∃ ds' : List Declaration, outcomes = ds'.map .ok ∧ ds.Perm ds' := by
  have hcomp := List.eq_map_comp_perm (Except.ok : Declaration → Except PassError Declaration)
  obtain ⟨ds', heq, hds⟩ := (congrFun₂ hcomp outcomes ds).mpr h.symm
  exact ⟨ds', heq, hds.symm⟩

theorem Routable.perm {xs ys : List (Except PassError Declaration)} (h : Routable xs)
    (hperm : xs.Perm ys) : Routable ys := by
  obtain ⟨ds, rfl, hfree⟩ := h
  obtain ⟨ds', rfl, hds⟩ := exists_perm_of_map_ok hperm
  exact ⟨ds', rfl, hfree.perm hds⟩

structure Group.Reordered (g g' : Group) : Prop where
  name : g.name = g'.name
  preamble : g.preamble = g'.preamble
  fragments : g.fragments.Perm g'.fragments

namespace GroupTable

def Reordered (t t' : GroupTable) : Prop :=
  SameUpTo Group.Reordered t.groups t'.groups

theorem Reordered.names_perm {t t' : GroupTable} (h : t.Reordered t') : t.names.Perm t'.names :=
  h.map_perm fun _ _ hg => hg.name

theorem ofDeclarations_reordered {ds ds' : List Declaration} (h : ds.Perm ds') :
    (ofDeclarations ds).Reordered (ofDeclarations ds') := by
  have hnodup (ds : List Declaration) : (ds.map Declaration.groupName).eraseDups.Nodup := by
    rw [← names_grouped _ ds]
    exact nodup_names_grouped _ ds
  have hnames : (ds.map Declaration.groupName).eraseDups.Perm
      (ds'.map Declaration.groupName).eraseDups := by
    rw [List.perm_ext_iff_of_nodup (hnodup ds) (hnodup ds')]
    intro name
    rw [List.mem_eraseDups, List.mem_eraseDups, (h.map Declaration.groupName).mem_iff]
  refine ⟨_, hnames.map _, ?_⟩
  rw [ofDeclarations, grouped, List.forall₂_map_left_iff, List.forall₂_map_right_iff,
    List.forall₂_same]
  exact fun name _ => ⟨rfl, rfl, (h.filter _).map _⟩

end GroupTable

namespace Sink
variable {σ : Type} (sink : Sink σ)

/-- Whatever has been put, it is the name of a file that decides if it is taken. -/
def TakesByName (state : σ) (takes : String → Bool) : Prop :=
  ∀ files name text, (sink.put (sink.putAll files state).2 name text).value.1 = .ok () ↔
    takes name = true

variable {sink}

theorem TakesByName.taken_eq {state : σ} {takes : String → Bool}
    (h : sink.TakesByName state takes) (files : List (String × String)) :
    taken files (sink.putAll files state).1 = (files.map Prod.fst).filter takes := by
  induction files generalizing state with
  | nil => rfl
  | cons file files ih =>
    -- What is taken by name now is so behind any file, which carries the induction.
    have hnext : sink.TakesByName (sink.put state file.1 file.2).value.2 takes :=
      fun others name text => h (file :: others) name text
    have hfirst := h [] file.1 file.2
    rw [putAll_cons, List.map_cons, List.filter_cons, ← ih hnext]
    simp only [putAll] at hfirst
    generalize (sink.put state file.1 file.2).value = reply at hfirst
    rcases reply with ⟨e | _, after⟩
    · have hno : takes file.1 = false := by simpa using hfirst
      rw [hno]
      rfl
    · rw [if_pos (hfirst.mp rfl)]
      rfl

end Sink

theorem MemorySink.takesByName (s : MemorySink) :
    sink.TakesByName s fun name =>
      !(s.refusedAtCreation.contains name || s.refusedAtWriting.contains name) := by
  have hlists (files : List (String × String)) (s : MemorySink) :
      (sink.putAll files s).2.refusedAtCreation = s.refusedAtCreation ∧
        (sink.putAll files s).2.refusedAtWriting = s.refusedAtWriting := by
    induction files generalizing s with
    | nil => exact ⟨rfl, rfl⟩
    | cons file files ih =>
      rw [Sink.putAll_cons]
      obtain ⟨hcreation, hwriting⟩ := ih (sink.put s file.1 file.2).value.2
      refine ⟨hcreation.trans ?_, hwriting.trans ?_⟩ <;>
        simp only [sink, Logged.pure_value] <;> split_ifs <;> rfl
  intro files name text
  obtain ⟨hcreation, hwriting⟩ := hlists files s
  simp only [sink, Logged.pure_value]
  rw [← hcreation, ← hwriting]
  split_ifs <;> simp_all [sink]

theorem Config.said_perm {lines lines' : List String}
    (h : (lines.map dropLineEnd).Perm (lines'.map dropLineEnd)) :
    (said lines).Perm (said lines') := by
  rw [said_eq, said_eq]
  exact h.filterMap readLine?

namespace Session

section Run
variable {σ : Type} {s : Session} (source : ElementSource) (resources : Option Resources)
  (sink : Sink σ) (state : σ)

theorem run_refused_iff_not_routable (hs : s.completed = false) :
    (∃ e, (s.run source resources sink state).value.outcome = .error (.refused e)) ↔
      ¬ Routable ((s.items source resources).map Item.outcome) := by
  constructor
  · rintro ⟨e, he⟩ ⟨ds, hitems, hfree⟩
    have hfirst := (firstOffence_of_refused source resources sink state hs he).1
    exact not_someOffence hitems hfree hfirst.someOffence
  · intro hno
    rcases routing_cases source resources (s := s) with ⟨ds, hitems, hfree, -⟩ | ⟨e, -, hrouted⟩
    · exact absurd ⟨ds, hitems, hfree⟩ hno
    · exact ⟨e, by rw [(run_of_refused source resources sink state hs hrouted).1]⟩

theorem exists_declarations_of_returned (hs : s.completed = false) {names : List String}
    {takes : String → Bool} (htakes : sink.TakesByName state takes)
    (h : (s.run source resources sink state).value.outcome = .ok names) :
    ∃ ds : List Declaration, (s.items source resources).map Item.outcome = ds.map .ok ∧
      let package := s.packageFor resources
      let table := GroupTable.ofDeclarations ds
      (s.run source resources sink state).value =
        ⟨⟨s.configName, package, table, true⟩,
          (sink.putAll (table.groups.map (Group.file package)) state).2, .ok names⟩ ∧
      names = (table.names.map (qualifiedName package)).filter takes := by
  obtain ⟨ds, hitems, -, hrouted⟩ := passesWith_of_returned source resources sink state hs h
  obtain ⟨hsession, hwritten⟩ := run_of_returned source resources sink state hs hrouted h
  obtain ⟨hput, hnames⟩ := sink.writeAll_of_ok (congrArg Prod.fst hwritten)
  have hsink := (congrArg Prod.snd hwritten).symm.trans hput
  refine ⟨ds, hitems, ?_, ?_⟩
  · rw [← h, ← hsession, ← hsink]
  · rw [hnames, htakes.taken_eq, GroupTable.names, List.map_map, List.map_map]
    rfl

end Run

section Directive
variable {configName : String} {blank lines : List String} {raw text : String}
  {failure : Option String} {resources : Resources}
  (hblank : ∀ raw ∈ blank, Text.isBlankText raw = true) (hraw : Text.strip raw = "package:" ++ text)
  (hresources : resources configName = .handed ⟨blank ++ raw :: lines, failure⟩)
include hblank hraw hresources

theorem loadConfig_directive (package : String) :
    ((new package configName).loadConfig (some resources)).value =
      ⟨Config.named text, Config.said lines⟩ := by
  have hread : (Config.ofReading ⟨blank ++ raw :: lines, failure⟩).value =
      ⟨Config.named text, Config.said lines⟩ := by
    rw [Config.ofReading_value]
    exact (Config.Reads.directive hblank hraw).value_readLines
  simp only [loadConfig, new, hresources, Logged.bind_value, Logged.pure_value, hread]

theorem items_outcome_directive (package : String) (source : ElementSource) :
    ((new package configName).items source (some resources)).map Item.outcome =
      source.outcomes ++ (Config.said lines).map .ok := by
  rw [items, Item.map_outcome_itemsOf, loadConfig_directive hblank hraw hresources]

theorem packageFor_directive (package : String) :
    (new package configName).packageFor (some resources) = (Config.named text).getD package := by
  rw [packageFor, loadConfig_directive hblank hraw hresources]
  rfl

end Directive

/-- Passes of new sessions over one input in two orders are both refused or neither is; and two
that return, into sinks that take files by their names alike, agree but for the order. The lines
are compared without their ends, as the last one need have none. -/
theorem run_reordered {σ σ' : Type} (package configName : String)
    {source source' : ElementSource} (hsource : source.Reordered source')
    {blank lines lines' : List String} {raw text : String} {failure failure' : Option String}
    (hblank : ∀ raw ∈ blank, Text.isBlankText raw = true)
    (hraw : Text.strip raw = "package:" ++ text)
    (hlines : (lines.map Config.dropLineEnd).Perm (lines'.map Config.dropLineEnd))
    {resources resources' : Resources}
    (hresources : resources configName = .handed ⟨blank ++ raw :: lines, failure⟩)
    (hresources' : resources' configName = .handed ⟨blank ++ raw :: lines', failure'⟩)
    (sink : Sink σ) (sink' : Sink σ') (state : σ) (state' : σ') :
    let ran := ((new package configName).run source (some resources) sink state).value
    let ran' := ((new package configName).run source' (some resources') sink' state').value
    let files (now : Session) := now.groups.groups.map (Group.file now.package)
    ((∃ e, ran.outcome = .error (.refused e)) ↔ ∃ e, ran'.outcome = .error (.refused e)) ∧
    ∀ takes names names', sink.TakesByName state takes → sink'.TakesByName state' takes →
      ran.outcome = .ok names → ran'.outcome = .ok names' →
      ran.session.package = ran'.session.package ∧
      ran.session.groups.Reordered ran'.session.groups ∧ names.Perm names' ∧
      names = (ran.session.groups.names.map (qualifiedName ran.session.package)).filter takes ∧
      ran.sink = (sink.putAll (files ran.session) state).2 ∧
      ran'.sink = (sink'.putAll (files ran'.session) state').2 := by
  intro ran ran' files
  have houtcomes : (((new package configName).items source (some resources)).map Item.outcome).Perm
      (((new package configName).items source' (some resources')).map Item.outcome) := by
    rw [items_outcome_directive hblank hraw hresources,
      items_outcome_directive hblank hraw hresources']
    exact hsource.outcomes_perm.append ((Config.said_perm hlines).map _)
  have hpackage : (new package configName).packageFor (some resources) =
      (new package configName).packageFor (some resources') := by
    rw [packageFor_directive hblank hraw hresources, packageFor_directive hblank hraw hresources']
  constructor
  · rw [run_refused_iff_not_routable source (some resources) sink state rfl,
      run_refused_iff_not_routable source' (some resources') sink' state' rfl, not_iff_not]
    exact ⟨fun h => h.perm houtcomes, fun h => h.perm houtcomes.symm⟩
  · intro takes names names' htakes htakes' hnames hnames'
    obtain ⟨ds, hitems, hran, hwritten⟩ :=
      exists_declarations_of_returned source (some resources) sink state rfl htakes hnames
    obtain ⟨ds', hitems', hran', hwritten'⟩ :=
      exists_declarations_of_returned source' (some resources') sink' state' rfl htakes' hnames'
    have hds : ds.Perm ds' := by
      have hok : Function.Injective (Except.ok : Declaration → Except PassError Declaration) :=
        fun _ _ => Except.ok.inj
      rw [hitems, hitems'] at houtcomes
      exact (List.map_perm_map_iff hok).mp houtcomes
    have hgroups := GroupTable.ofDeclarations_reordered hds
    have hpermuted : names.Perm names' := by
      rw [hwritten, hwritten', hpackage]
      exact (hgroups.names_perm.map _).filter _
    rw [show ran = _ from hran, show ran' = _ from hran']
    exact ⟨hpackage, hgroups, hpermuted, hwritten, rfl, rfl⟩

def Sample.named : Field :=
  ⟨⟨"x", false⟩, .fieldElement, [("boolean", ⟨"G", none, .null⟩)]⟩

def Sample.unnamed : Field :=
  ⟨⟨"y", false⟩, .fieldElement, [("string", ⟨" ", some ⟨"k-v", false⟩, .null⟩)]⟩

def Sample.inOrder : ElementSource :=
  [none, some ⟨"A", .classElement, [none, some Sample.named, some Sample.unnamed]⟩]

def Sample.inAnotherOrder : ElementSource :=
  [some ⟨"A", .classElement, [some Sample.unnamed, none, some Sample.named]⟩, none]

/-- The last line is not closed, here and in the other order. -/
def Sample.lines : List String := ["G,x2,true,boolean\n", ",z,TRUE,boolean"]

def Sample.otherLines : List String := [",z,TRUE,boolean\n", "G,x2,true,boolean"]

def Sample.handing (lines : List String) : Resources :=
  fun _ => .handed ⟨"\n" :: "package: a\n" :: lines, none⟩

theorem sample_reordered :
    let ran := ((new "com" "prefs").run Sample.inOrder (some (Sample.handing Sample.lines))
      MemorySink.sink .empty).value
    let ran' := ((new "com" "prefs").run Sample.inAnotherOrder
      (some (Sample.handing Sample.otherLines)) MemorySink.sink .empty).value
    Sample.inOrder.Reordered Sample.inAnotherOrder ∧
    (Sample.lines.map Config.dropLineEnd).Perm (Sample.otherLines.map Config.dropLineEnd) ∧
    ran.outcome = .ok ["a.G", "a.DefaultPrefHelper"] ∧
    ran'.outcome = .ok ["a.DefaultPrefHelper", "a.G"] ∧
    ran.session.package = ran'.session.package ∧
    ran.session.groups.Reordered ran'.session.groups := by
  intro ran ran'
  have hsource : Sample.inOrder.Reordered Sample.inAnotherOrder := by
    refine ⟨Sample.inOrder.reverse, (List.reverse_perm _).symm, ?_⟩
    refine .cons (.some ⟨rfl, rfl, ?_⟩) (.cons .none .nil)
    have hfields : ([none, some Sample.named] ++ [some Sample.unnamed]).Perm
        ([some Sample.unnamed] ++ [none, some Sample.named]) := List.perm_append_comm
    exact hfields
  have hlines : (Sample.lines.map Config.dropLineEnd).Perm
      (Sample.otherLines.map Config.dropLineEnd) := by decide
  have hblank : ∀ raw ∈ ["\n"], Text.isBlankText raw = true := by decide
  have hraw : Text.strip "package: a\n" = "package:" ++ " a" := by decide
  have hran : ran.outcome = .ok ["a.G", "a.DefaultPrefHelper"] := by decide +kernel
  have hran' : ran'.outcome = .ok ["a.DefaultPrefHelper", "a.G"] := by decide +kernel
  have htakes := MemorySink.takesByName .empty
  have hhanded (lines : List String) : Sample.handing lines "prefs" =
      .handed ⟨["\n"] ++ "package: a\n" :: lines, none⟩ := rfl
  obtain ⟨hpackage, hgroups, -⟩ := (run_reordered "com" "prefs" hsource hblank hraw
    hlines (hhanded Sample.lines) (hhanded Sample.otherLines)
    MemorySink.sink MemorySink.sink .empty .empty).2 _ _ _ htakes htakes hran hran'
  exact ⟨hsource, hlines, hran, hran', hpackage, hgroups⟩

end Session

end PreferenceAccessors
