import PreferenceAccessors.Proofs.ConfigReading
import PreferenceAccessors.Proofs.Pass

/-!
A config that is not to be had. There may be no resources, or none of the name of the
config, or it cannot be opened, or the first line cannot be read, or no line says
anything: a pass is then the pass without resources, but for what loading told.

Loading asks for the resource once, and one that was handed out is closed at the end of
loading, wherever reading broke off. No group is created before that.
-/

namespace PreferenceAccessors

/-- The ways in which nothing comes of a config. -/
inductive Unavailable (configName : String) : Option Resources → Prop
  | noResources : Unavailable configName none
  | unknown {resources : Resources} (h : resources configName = .absent) :
      Unavailable configName (some resources)
  | unopened {resources : Resources} {reason : String}
      (h : resources configName = .refused reason) : Unavailable configName (some resources)
  | unread {resources : Resources} {reason : String}
      (h : resources configName = .handed ⟨[], some reason⟩) :
      Unavailable configName (some resources)
  | blank {resources : Resources} {lines : List String} {failure : Option String}
      (h : resources configName = .handed ⟨lines, failure⟩)
      (hblank : ∀ raw ∈ lines, Text.isBlankText raw = true) :
      Unavailable configName (some resources)

namespace Notice

def handlesResource : Notice → Bool
  | resourceAsked _ => true
  | resourceHanded _ => true
  | resourceClosed _ => true
  | _ => false

def createsGroup : Notice → Bool
  | groupCreated _ => true
  | _ => false

end Notice

theorem filter_handlesResource_eq_nil {log : List Notice}
    (h : ∀ n ∈ log, n.handlesResource = false) : log.filter Notice.handlesResource = [] := by
  rw [List.filter_eq_nil_iff]
  intro n hn
  simp [h n hn]

namespace Config

theorem Tells.handlesResource {n : Notice} (h : Tells n) : n.handlesResource = false := by
  cases h <;> rfl

theorem Tells.createsGroup {n : Notice} (h : Tells n) : n.createsGroup = false := by
  cases h <;> rfl

theorem ofReading_blank {lines : List String}
    (hblank : ∀ raw ∈ lines, Text.isBlankText raw = true) (failure : Option String) :
    (ofReading ⟨lines, failure⟩).value = .empty := by
  rw [ofReading_value]
  exact (Reads.blank hblank).value_readLines

end Config

/-- A sink has no resources of its own. -/
def Sink.OpensNothing {σ : Type} (sink : Sink σ) : Prop :=
  ∀ state name text, ∀ n ∈ (sink.put state name text).log, n.handlesResource = false

theorem Sink.OpensNothing.writeAll {σ : Type} {sink : Sink σ} (h : sink.OpensNothing)
    (package : String) (groups : List Group) (state : σ) :
    ∀ n ∈ (sink.writeAll package groups state).log, n.handlesResource = false := by
  induction groups generalizing state with
  | nil => simp [Sink.writeAll]
  | cons g rest ih =>
    simp only [Sink.writeAll, Logged.bind_log, Logged.tell_log, List.mem_append, List.mem_singleton]
    rintro n (rfl | hn | hn)
    · rfl
    · exact h _ _ _ n hn
    · revert hn
      generalize (sink.put state _ _).value = reply
      rcases reply with ⟨(reason | cause) | _, after⟩
      · simp only [Logged.bind_log, Logged.tell_log, List.mem_append, List.mem_singleton]
        rintro (rfl | hn)
        · rfl
        · exact ih after n hn
      · simp
      · simp only [Logged.bind_log, Logged.tell_log, Logged.pure_log, List.append_nil,
          List.mem_append, List.mem_singleton]
        rintro (rfl | hn)
        · rfl
        · exact ih after n hn

theorem MemorySink.opensNothing : MemorySink.sink.OpensNothing := by
  intro state name text n hn
  simp [sink] at hn

namespace Session
variable {s : Session}

theorem loadConfig_of_unavailable {resources : Option Resources}
    (h : Unavailable s.configName resources) : (s.loadConfig resources).value = .empty := by
  cases h with
  | noResources => rfl
  | unknown h => rw [loadConfig_absent h]
  | unopened h => rw [loadConfig_refused h]
  | unread h =>
    have hblank : ∀ raw ∈ ([] : List String), Text.isBlankText raw = true := by simp
    rw [loadConfig_handed h, Config.ofReading_blank hblank]
  | blank h hblank => rw [loadConfig_handed h, Config.ofReading_blank hblank]

theorem loadConfig_handlesResource (resources : Resources) :
    (s.loadConfig (some resources)).log.filter Notice.handlesResource =
      .resourceAsked s.configName :: match resources s.configName with
        | .handed _ => [.resourceHanded s.configName, .resourceClosed s.configName]
        | _ => [] := by
  cases h : resources s.configName with
  | refused reason =>
    rw [loadConfig_refused h]
    rfl
  | absent =>
    rw [loadConfig_absent h]
    rfl
  | handed reading =>
    have htold := filter_handlesResource_eq_nil fun n hn =>
      (Config.ofReading_tells reading n hn).handlesResource
    rw [loadConfig_handed h, List.filter_cons_of_pos rfl, List.filter_cons_of_pos rfl,
      List.filter_append, htold]
    rfl

theorem loadConfig_createsGroup (resources : Option Resources) :
    ∀ n ∈ (s.loadConfig resources).log, n.createsGroup = false := by
  cases resources with
  | none => simp [loadConfig]
  | some resources =>
    cases h : resources s.configName with
    | refused reason => simp [loadConfig_refused h, Notice.createsGroup]
    | absent => simp [loadConfig_absent h, Notice.createsGroup]
    | handed reading =>
      rw [loadConfig_handed h]
      simp only [List.mem_cons, List.mem_append, List.not_mem_nil, or_false]
      rintro n (rfl | rfl | hn | rfl)
      · rfl
      · rfl
      · exact (Config.ofReading_tells reading n hn).createsGroup
      · rfl

section Run
variable {σ : Type} (s) (source : ElementSource) (sink : Sink σ) (state : σ)

theorem run_of_same_config (hs : s.completed = false) {resources others : Option Resources}
    (h : (s.loadConfig resources).value = (s.loadConfig others).value) :
    (s.run source resources sink state).value = (s.run source others sink state).value ∧
      ∃ later, (s.run source resources sink state).log = (s.loadConfig resources).log ++ later ∧
        (s.run source others sink state).log = (s.loadConfig others).log ++ later := by
  unfold run
  simp only [hs, Bool.false_eq_true, if_false, Logged.bind_value, Logged.bind_log, h]
  exact ⟨trivial, _, rfl, rfl⟩

theorem run_of_unavailable {resources : Option Resources}
    (h : Unavailable s.configName resources) :
    (s.run source resources sink state).value = (s.run source none sink state).value ∧
      (s.run source resources sink state).log =
        (if s.completed then [] else (s.loadConfig resources).log) ++
          (s.run source none sink state).log := by
  cases hs : s.completed with
  | true =>
    rw [run_completed source resources sink state hs, run_completed source none sink state hs]
    exact ⟨rfl, rfl⟩
  | false =>
    obtain ⟨hvalue, later, hlog, hnone⟩ := run_of_same_config s source sink state hs
      ((loadConfig_of_unavailable h).trans (loadConfig_of_unavailable .noResources).symm)
    refine ⟨hvalue, ?_⟩
    rw [hlog, hnone]
    rfl

theorem run_handlesResource (hsink : sink.OpensNothing) (resources : Option Resources) :
    (s.run source resources sink state).log.filter Notice.handlesResource =
      if s.completed then [] else (s.loadConfig resources).log.filter Notice.handlesResource := by
  cases hs : s.completed with
  | true =>
    rw [run_completed source resources sink state hs]
    rfl
  | false =>
    have hrouting : (s.routing source resources).log.filter Notice.handlesResource = [] := by
      obtain ⟨created, hlog⟩ :=
        GroupTable.routeAll_log .empty ((s.items source resources).map Item.outcome)
      apply filter_handlesResource_eq_nil
      rw [routing, hlog]
      intro n hn
      rcases List.mem_append.mp hn with hn | hn
      · obtain ⟨name, -, rfl⟩ := List.mem_map.mp hn
        rfl
      · obtain ⟨e, -, rfl⟩ := Option.map_eq_some_iff.mp (Option.mem_toList.mp hn)
        rfl
    rw [run_idle source resources sink state hs]
    simp only [Logged.bind_log, List.filter_append, hrouting]
    rcases (s.routing source resources).value with ⟨groups, _ | e⟩
    · have hwritten := filter_handlesResource_eq_nil
        (hsink.writeAll (s.packageFor resources) groups.groups state)
      simp only [Logged.bind_log, Logged.tell_log, List.filter_append, Sink.writeGroups, hwritten]
      generalize (sink.writeAll (s.packageFor resources) groups.groups state).value = written
      rcases written with ⟨cause | names, after⟩ <;> simp [Notice.handlesResource]
    · simp

theorem run_log_of_idle (hs : s.completed = false) (resources : Option Resources) :
    ∃ later, (s.run source resources sink state).log = (s.loadConfig resources).log ++ later := by
  obtain ⟨-, later, hlog, -⟩ := run_of_same_config s source sink state hs
    (rfl : (s.loadConfig resources).value = (s.loadConfig resources).value)
  exact ⟨later, hlog⟩

theorem run_closes_first (hs : s.completed = false) {resources : Resources} {reading : Reading}
    (h : resources s.configName = .handed reading) :
    ∃ before after, (s.run source (some resources) sink state).log =
        before ++ .resourceClosed s.configName :: after ∧
      .resourceHanded s.configName ∈ before ∧ ∀ n ∈ before, n.createsGroup = false := by
  obtain ⟨later, hlog⟩ := run_log_of_idle s source sink state hs (some resources)
  have hcreates := loadConfig_createsGroup (s := s) (some resources)
  rw [loadConfig_handed h] at hlog hcreates
  refine ⟨.resourceAsked s.configName :: .resourceHanded s.configName ::
    (Config.ofReading reading).log, later, ?_, by simp, fun n hn => hcreates n ?_⟩
  · rw [hlog]
    simp
  · simp only [List.mem_cons, List.mem_append] at hn ⊢
    tauto

end Run

/-- A config that is not to be had is the empty one, and the pass has the session, the sink and the
outcome of a pass without resources. Whatever the resources are, loading asks them for the config
once, and closes what they handed out before a group is created; nothing else of a pass, and nothing
of a completed session, looks at them. -/
theorem run_without_config {σ : Type} (s : Session) (source : ElementSource) (sink : Sink σ)
    (state : σ) :
    (∀ resources, Unavailable s.configName resources →
      (s.loadConfig resources).value = .empty ∧
      (s.run source resources sink state).value = (s.run source none sink state).value ∧
      (s.run source resources sink state).log =
        (if s.completed then [] else (s.loadConfig resources).log) ++
          (s.run source none sink state).log) ∧
    (∀ resources : Resources, (s.loadConfig (some resources)).log.filter Notice.handlesResource =
      .resourceAsked s.configName :: match resources s.configName with
        | .handed _ => [.resourceHanded s.configName, .resourceClosed s.configName]
        | _ => []) ∧
    (∀ (resources : Resources) (reading : Reading), s.completed = false →
      resources s.configName = .handed reading →
      ∃ before after, (s.run source (some resources) sink state).log =
          before ++ .resourceClosed s.configName :: after ∧
        .resourceHanded s.configName ∈ before ∧ ∀ n ∈ before, n.createsGroup = false) ∧
    (sink.OpensNothing → ∀ resources,
      (s.run source resources sink state).log.filter Notice.handlesResource =
        if s.completed then []
        else (s.loadConfig resources).log.filter Notice.handlesResource) := by
  refine ⟨fun resources h => ?_, loadConfig_handlesResource, fun resources reading hs h => ?_,
    fun hsink resources => ?_⟩
  · exact ⟨loadConfig_of_unavailable h, run_of_unavailable s source sink state h⟩
  · exact run_closes_first s source sink state hs h
  · exact run_handlesResource s source sink state hsink resources

def Sample.blankThenGone : Resources :=
  fun name => if name = "prefs" then .handed ⟨["\n", " \r\n"], some "gone"⟩ else .absent

theorem sample_without_config :
    let ran := Sample.session.run Sample.source (some Sample.blankThenGone) MemorySink.sink
      Sample.sink
    Unavailable "prefs" (some Sample.blankThenGone) ∧ MemorySink.sink.OpensNothing ∧
    ran.value.outcome = .ok ["com.G", "com.DefaultPrefHelper"] ∧
    ran.value = (Sample.session.run Sample.source none MemorySink.sink Sample.sink).value ∧
    ran.log.filter Notice.handlesResource =
      [.resourceAsked "prefs", .resourceHanded "prefs", .resourceClosed "prefs"] ∧
    ∃ before after, ran.log = before ++ .resourceClosed "prefs" :: after ∧
      .resourceHanded "prefs" ∈ before ∧ ∀ n ∈ before, n.createsGroup = false := by
  intro ran
  have hblank : ∀ raw ∈ ["\n", " \r\n"], Text.isBlankText raw = true := by decide
  have hunavailable : Unavailable "prefs" (some Sample.blankThenGone) := .blank rfl hblank
  obtain ⟨hsame, hasked, hclosed, honly⟩ := run_without_config Sample.session Sample.source
    MemorySink.sink Sample.sink
  have hvalue := (hsame _ hunavailable).2.1
  refine ⟨hunavailable, MemorySink.opensNothing, ?_, hvalue, ?_, hclosed _ _ rfl rfl⟩
  · rw [hvalue]
    decide +kernel
  · exact (honly MemorySink.opensNothing _).trans (hasked Sample.blankThenGone)

end Session

end PreferenceAccessors
