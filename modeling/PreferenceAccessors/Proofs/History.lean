import PreferenceAccessors.Proofs.Pass

/-!
Histories of a session. Anything may be asked of it in any order: runs, manual
routing, looks at elements or config, and writing of the current table. Sinks
share one world. Only a run that returns completes the session, and as long as
none has, the next run is that of a new session; later runs do nothing.
-/

namespace PreferenceAccessors.Session
variable {σ : Type}

inductive Request (σ : Type)
  | run (source : ElementSource) (resources : Option Resources) (sink : Sink σ)
  | collect (source : ElementSource)
  | route (d : Declaration)
  | loadConfig (resources : Option Resources)
  | fail (message : String)
  | write (package : String) (sink : Sink σ)

def Request.OnlyRefuses : Request σ → Prop
  | .run _ _ sink => sink.OnlyRefuses
  | .write _ sink => sink.OnlyRefuses
  | _ => True

def serve (s : Session) (world : σ) : Request σ → Logged (Session × σ)
  | .run source resources sink => do
    let ran ← s.run source resources sink world
    pure (ran.session, ran.sink)
  | .collect source => do
    let _ ← PreferenceAccessors.collect source.outcomes
    pure (s, world)
  | .route d => do
    let (s, _) ← s.route d
    pure (s, world)
  | .loadConfig resources => do
    let _ ← s.loadConfig resources
    pure (s, world)
  | .fail message => do
    Logged.tell (.passRefused (PassError.stated message).message)
    pure (s, world)
  | .write package sink => do
    let (_, world) ← sink.writeGroups s.groups package world
    pure (s, world)

def after (s : Session) (world : σ) (requests : List (Request σ)) : Session × σ :=
  requests.foldl (fun now request => (now.1.serve now.2 request).value) (s, world)

theorem after_concat (s : Session) (world : σ) (requests : List (Request σ))
    (request : Request σ) :
    s.after world (requests ++ [request]) =
      ((s.after world requests).1.serve (s.after world requests).2 request).value := by
  simp [after]

def Returns (s : Session) (world : σ) : Request σ → Prop
  | .run source resources sink =>
    ∃ names, (s.run source resources sink world).value.outcome = .ok names
  | _ => False

/-- A new session, but for the table of groups. -/
def IsFresh (package configName : String) (s : Session) : Prop :=
  ∃ groups, s = ⟨configName, package, groups, false⟩

theorem IsFresh.run_eq {package configName : String} {s : Session} (h : s.IsFresh package configName)
    (source : ElementSource) (resources : Option Resources) (sink : Sink σ) (world : σ) :
    s.run source resources sink world =
      (new package configName).run source resources sink world := by
  obtain ⟨groups, rfl⟩ := h
  rfl

theorem run_of_onlyRefuses {s : Session} (hs : s.completed = false) (source : ElementSource)
    (resources : Option Resources) {sink : Sink σ} (hsink : sink.OnlyRefuses) (world : σ)
    {groups : GroupTable} (h : (s.routing source resources).value = (groups, none)) :
    (∃ names, (s.run source resources sink world).value.outcome = .ok names) ∧
      (s.run source resources sink world).value.session.completed = true := by
  obtain ⟨names, hnames⟩ := hsink.writeAll_ok (s.packageFor resources) groups.groups world
  rw [run_of_routed source resources sink world hs h]
  change (sink.writeGroups _ _ world).value.1 = .ok names at hnames
  generalize (sink.writeGroups _ _ world).value = written at hnames
  obtain ⟨outcome, after⟩ := written
  obtain rfl : outcome = .ok names := hnames
  exact ⟨⟨names, rfl⟩, rfl⟩

theorem run_new (package configName : String) (source : ElementSource)
    (resources : Option Resources) {sink : Sink σ} (hsink : sink.OnlyRefuses) (world : σ) :
    let ran := (new package configName).run source resources sink world
    ((∃ names, ran.value.outcome = .ok names) ∧ ran.value.session.completed = true) ∨
      ((∃ e, ran.value.outcome = .error (.refused e)) ∧
        ran.value.session = new package configName ∧ ran.value.sink = world ∧
        ∀ name, .sinkAsked name ∉ ran.log) := by
  have hs : (new package configName).completed = false := rfl
  rcases routing_cases source resources (s := new package configName) with
    ⟨ds, -, -, hrouted⟩ | ⟨e, -, hrouted⟩
  · left
    exact run_of_onlyRefuses hs source resources hsink world hrouted
  · right
    rw [(run_of_refused source resources sink world hs hrouted).1]
    exact ⟨⟨e, rfl⟩, rfl, rfl, (run_log_of_refused source resources sink world hs hrouted).2⟩

theorem serve_of_completed {s : Session} (hs : s.completed = true) (world : σ)
    (request : Request σ) : (s.serve world request).value.1.completed = true := by
  cases request with
  | run source resources sink =>
    simp only [serve, run_completed source resources sink world hs]
    exact hs
  | _ => exact hs

theorem after_append_of_completed {s : Session} {world : σ} {requests : List (Request σ)}
    (h : (s.after world requests).1.completed = true) (more : List (Request σ)) :
    (s.after world (requests ++ more)).1.completed = true := by
  induction more using List.reverseRecOn with
  | nil => simpa using h
  | append_singleton more request ih =>
    rw [← List.append_assoc, after_concat]
    exact serve_of_completed ih _ request

theorem serve_of_fresh {package configName : String} {s : Session}
    (h : s.IsFresh package configName) (world : σ) {request : Request σ}
    (hrequest : request.OnlyRefuses) :
    (s.Returns world request ∧ (s.serve world request).value.1.completed = true) ∨
      (¬ s.Returns world request ∧ (s.serve world request).value.1.IsFresh package configName) := by
  cases request with
  | run source resources sink =>
    have hrun := h.run_eq source resources sink world
    simp only [Returns, serve, Logged.bind_value, Logged.pure_value, hrun]
    rcases run_new package configName source resources hrequest world with
      ⟨hreturns, hdone⟩ | ⟨⟨e, he⟩, hsession, -⟩
    · exact .inl ⟨hreturns, hdone⟩
    · refine .inr ⟨?_, .empty, hsession⟩
      rintro ⟨names, hnames⟩
      rw [he] at hnames
      simp at hnames
  | _ =>
    obtain ⟨groups, rfl⟩ := h
    exact .inr ⟨id, _, rfl⟩

theorem concat_eq_append_cons {α : Type} {xs before rest : List α} {x y : α}
    (h : xs ++ [x] = before ++ y :: rest) :
    (before = xs ∧ y = x) ∨ ∃ tail, xs = before ++ y :: tail := by
  rcases List.eq_nil_or_concat rest with rfl | ⟨tail, z, rfl⟩
  · left
    have hinj := List.append_inj' h rfl
    exact ⟨hinj.1.symm, (List.cons.inj hinj.2).1.symm⟩
  · right
    have hcut : xs ++ [x] = (before ++ y :: tail) ++ [z] := by simpa using h
    exact ⟨tail, (List.append_inj' hcut rfl).1⟩

/-- A history either has a run that returned, or has left the session new but for its groups. -/
theorem after_cases (package configName : String) (world : σ) {requests : List (Request σ)}
    (h : ∀ request ∈ requests, request.OnlyRefuses) :
    let now (requests : List (Request σ)) := (new package configName).after world requests
    ((now requests).1.completed = true ∧ ∃ before request rest,
        requests = before ++ request :: rest ∧ (now before).1.Returns (now before).2 request) ∨
      ((now requests).1.IsFresh package configName ∧ ∀ before request rest,
        requests = before ++ request :: rest → ¬ (now before).1.Returns (now before).2 request) := by
  intro now
  induction requests using List.reverseRecOn with
  | nil =>
    right
    exact ⟨⟨.empty, rfl⟩, fun before request rest h => absurd h.symm (by simp)⟩
  | append_singleton requests request ih =>
    have hlast := h request (List.mem_append_right _ (List.mem_singleton.mpr rfl))
    have hnow : now (requests ++ [request]) =
        ((now requests).1.serve (now requests).2 request).value := after_concat ..
    rcases ih fun r hr => h r (List.mem_append_left _ hr) with
      ⟨hdone, before, r, rest, rfl, hreturns⟩ | ⟨hfresh, hnone⟩
    · left
      refine ⟨?_, before, r, rest ++ [request], by simp, hreturns⟩
      rw [hnow]
      exact serve_of_completed hdone _ request
    · rcases serve_of_fresh hfresh (now requests).2 hlast with ⟨hreturns, hdone⟩ | ⟨hnot, hstill⟩
      · left
        exact ⟨hnow ▸ hdone, requests, request, [], rfl, hreturns⟩
      · right
        refine ⟨hnow ▸ hstill, fun before r rest hcut => ?_⟩
        rcases concat_eq_append_cons hcut with ⟨rfl, rfl⟩ | ⟨tail, htail⟩
        · exact hnot
        · exact hnone before r tail htail

/-- In any history a session is complete exactly when some run has returned. Until then a run is
that of a new session, and it either returns and completes the session or is refused, leaving the
session new and the world as it was; from then on a run does nothing. -/
theorem history_completes_once (package configName : String) (world : σ)
    (requests : List (Request σ)) (h : ∀ request ∈ requests, request.OnlyRefuses) :
    let fresh := new package configName
    let now (requests : List (Request σ)) := fresh.after world requests
    ((now requests).1.completed = true ↔ ∃ before request rest,
      requests = before ++ request :: rest ∧ (now before).1.Returns (now before).2 request) ∧
    (∀ before rest, requests = before ++ rest →
      (now before).1.completed = true → (now requests).1.completed = true) ∧
    ∀ before source resources sink rest,
      requests = before ++ .run source resources sink :: rest →
      let s := (now before).1
      let there := (now before).2
      let ran := s.run source resources sink there
      (s.completed = false →
        ran = fresh.run source resources sink there ∧
        (((∃ names, ran.value.outcome = .ok names) ∧ ran.value.session.completed = true) ∨
          ((∃ e, ran.value.outcome = .error (.refused e)) ∧ ran.value.session = fresh ∧
            ran.value.sink = there ∧ ∀ name, .sinkAsked name ∉ ran.log))) ∧
      (s.completed = true →
        ran.value = ⟨s, there, .ok []⟩ ∧ ran.log = [.passSkipped]) := by
  intro fresh now
  refine ⟨?_, ?_, ?_⟩
  · rcases after_cases package configName world h with
      ⟨hdone, hreturned⟩ | ⟨⟨groups, hfresh⟩, hnone⟩
    · exact iff_of_true hdone hreturned
    · refine iff_of_false ?_ ?_
      · have hs : (now requests).1 = ⟨configName, package, groups, false⟩ := hfresh
        simp [hs]
      · rintro ⟨before, request, rest, hcut, hreturns⟩
        exact hnone before request rest hcut hreturns
  · rintro before rest rfl hdone
    exact after_append_of_completed hdone rest
  · intro before source resources sink rest hcut s there ran
    have hbefore : ∀ request ∈ before, request.OnlyRefuses := fun r hr =>
      h r (hcut ▸ List.mem_append_left _ hr)
    have hsink : sink.OnlyRefuses :=
      h (.run source resources sink) (hcut ▸ List.mem_append_right _ List.mem_cons_self)
    refine ⟨fun hidle => ?_, fun hdone => ?_⟩
    · rcases after_cases package configName world hbefore with ⟨hdone, -⟩ | ⟨hfresh, -⟩
      · exact absurd (hidle.symm.trans hdone) (by simp)
      · have hran : ran = fresh.run source resources sink there :=
          hfresh.run_eq source resources sink there
        rw [hran]
        exact ⟨rfl, run_new package configName source resources hsink there⟩
    · have hran : ran = ⟨⟨s, there, .ok []⟩, [.passSkipped]⟩ :=
        run_completed source resources sink there hdone
      rw [hran]
      exact ⟨rfl, rfl⟩

def Sample.failures : List (Request MemorySink) :=
  [.run Sample.clashing none MemorySink.sink,
    .route ⟨"G", "x2", .boolean true, none, by decide⟩]

def Sample.history : List (Request MemorySink) :=
  Sample.failures ++ [.run Sample.source (some Sample.resources) MemorySink.sink,
    .run Sample.clashing none MemorySink.sink]

theorem Sample.history_onlyRefuses : ∀ request ∈ Sample.history, request.OnlyRefuses := by
  simp [Sample.history, Sample.failures, Request.OnlyRefuses, MemorySink.onlyRefuses]

theorem sample_history_completes :
    (∀ request ∈ Sample.history, request.OnlyRefuses) ∧
      ((new "com" "prefs").after Sample.sink Sample.history).1.completed = true := by
  have h := history_completes_once "com" "prefs" Sample.sink Sample.history
    Sample.history_onlyRefuses
  have hreturns : ∃ names, (((new "com" "prefs").after Sample.sink Sample.failures).1.run
      Sample.source (some Sample.resources) MemorySink.sink
      ((new "com" "prefs").after Sample.sink Sample.failures).2).value.outcome = .ok names :=
    ⟨["a.G"], by decide +kernel⟩
  exact ⟨Sample.history_onlyRefuses, h.1.mpr ⟨Sample.failures, _, _, rfl, hreturns⟩⟩

end PreferenceAccessors.Session
