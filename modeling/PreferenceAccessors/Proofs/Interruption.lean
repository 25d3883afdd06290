import PreferenceAccessors.Proofs.Pass

/-!
Writing that is broken off. When a sink refuses a file that is told and the next
one is put; a file that is no matter for the sink ends the writing, and those
behind it are never asked for. The pass then has its table and its package but
is not complete.
-/

namespace PreferenceAccessors

namespace Notice

def asked? : Notice → Option String
  | sinkAsked qualified => some qualified
  | _ => none

theorem isCalm_iff (n : Notice) : n.IsCalm ↔ n.level? ≠ some .error ∧ n.asked? = none := by
  refine and_congr_right fun _ => ?_
  cases n <;> simp [asked?]

instance : DecidablePred IsCalm :=
  fun n => decidable_of_iff _ n.isCalm_iff.symm

end Notice

theorem filter_not_calm {log : List Notice} (h : ∀ n ∈ log, n.IsCalm) :
    log.filter (¬ ·.IsCalm) = [] := by
  rw [List.filter_eq_nil_iff]
  intro n hn
  simpa using h n hn

namespace Sink
variable {σ : Type} (sink : Sink σ)

def Bears (files : List (String × String)) (state : σ) : Prop :=
  ∀ cause, .error (.malformed cause) ∉ (sink.putAll files state).1

theorem bears_nil (state : σ) : sink.Bears [] state :=
  fun _ => List.not_mem_nil

theorem bears_cons (file : String × String) (files : List (String × String)) (state : σ) :
    sink.Bears (file :: files) state ↔
      (∀ cause, (sink.put state file.1 file.2).value.1 ≠ .error (.malformed cause)) ∧
        sink.Bears files (sink.put state file.1 file.2).value.2 := by
  simp only [Bears, putAll_cons, List.mem_cons, not_or, forall_and, ne_comm, ne_eq]

def account : List (String × String) → List (Except PutError Unit) → List Notice
  | (name, _) :: files, .error (.refused reason) :: answers =>
    .sinkAsked name :: .groupNotWritten name reason :: account files answers
  | (name, _) :: files, _ :: answers => .sinkAsked name :: account files answers
  | _, _ => []

theorem taken_putAll_cons (file : String × String) (files : List (String × String)) (state : σ) :
    let reply := (sink.put state file.1 file.2).value
    taken (file :: files) (sink.putAll (file :: files) state).1 =
      taken [file] [reply.1] ++ taken files (sink.putAll files reply.2).1 := by
  rw [putAll_cons]
  generalize (sink.put state _ _).value = reply
  rcases reply with ⟨e | _, after⟩ <;> rfl

theorem account_putAll_cons (file : String × String) (files : List (String × String))
    (state : σ) :
    let reply := (sink.put state file.1 file.2).value
    account (file :: files) (sink.putAll (file :: files) state).1 =
      account [file] [reply.1] ++ account files (sink.putAll files reply.2).1 := by
  rw [putAll_cons]
  generalize (sink.put state _ _).value = reply
  rcases reply with ⟨(reason | cause) | _, after⟩ <;> rfl

/-- A sink that by itself tells of no error and asks for nothing. -/
def Quiet : Prop :=
  ∀ state name text, ∀ n ∈ (sink.put state name text).log, n.IsCalm

structure WritesOut (files : List (String × String)) (state : σ)
    (written : Logged (Except Malformation (List String) × σ)) : Prop where
  bears : sink.Bears files state
  value : written.value = (.ok (taken files (sink.putAll files state).1),
    (sink.putAll files state).2)
  told : written.log.filter (¬ ·.IsCalm) = account files (sink.putAll files state).1

/-- The files in front have been put in order, and then one that ended the writing. -/
structure BreaksOff (front : List (String × String)) (file : String × String)
    (cause : Malformation) (state : σ)
    (written : Logged (Except Malformation (List String) × σ)) : Prop where
  bears : sink.Bears front state
  breaks : (sink.put (sink.putAll front state).2 file.1 file.2).value.1 = .error (.malformed cause)
  value : written.value =
    (.error cause, (sink.put (sink.putAll front state).2 file.1 file.2).value.2)
  told : written.log.filter (¬ ·.IsCalm) =
    account front (sink.putAll front state).1 ++ [.sinkAsked file.1]

variable {sink}

theorem writeAll_cons_told (hquiet : sink.Quiet) (package : String) (g : Group)
    (rest : List Group) (state : σ) :
    let reply := (sink.put state (g.file package).1 (g.file package).2).value
    (sink.writeAll package (g :: rest) state).log.filter (¬ ·.IsCalm) =
      account [g.file package] [reply.1] ++ match reply.1 with
        | .error (.malformed _) => []
        | _ => (sink.writeAll package rest reply.2).log.filter (¬ ·.IsCalm) := by
  have hput := filter_not_calm (hquiet state (g.file package).1 (g.file package).2)
  simp only [writeAll, Logged.bind_log, Logged.tell_log, List.filter_append, Group.render_eq]
  simp only [Group.file] at hput ⊢
  rw [hput]
  generalize (sink.put state _ _).value = reply
  have hasked (name : String) : ¬ (Notice.sinkAsked name).IsCalm := by
    simp [Notice.isCalm_iff, Notice.asked?]
  have hrefused (name reason : String) : ¬ (Notice.groupNotWritten name reason).IsCalm := by
    simp [Notice.isCalm_iff, Notice.level?]
  have hwritten (name : String) : (Notice.groupWritten name).IsCalm := by
    simp [Notice.isCalm_iff, Notice.level?, Notice.asked?]
  rcases reply with ⟨(reason | cause) | _, after⟩ <;>
    simp [account, hasked, hrefused, hwritten]

section Step
variable {package : String} {g : Group} {rest : List Group} {state : σ}

theorem writeAll_cons_borne (hquiet : sink.Quiet)
    (hput : ∀ cause, (sink.put state (g.file package).1 (g.file package).2).value.1 ≠
      .error (.malformed cause)) (rest : List Group) :
    let reply := (sink.put state (g.file package).1 (g.file package).2).value
    let written := sink.writeAll package rest reply.2
    (sink.writeAll package (g :: rest) state).value =
        (written.value.1.map (taken [g.file package] [reply.1] ++ ·), written.value.2) ∧
      (sink.writeAll package (g :: rest) state).log.filter (¬ ·.IsCalm) =
        account [g.file package] [reply.1] ++ written.log.filter (¬ ·.IsCalm) := by
  have htold := writeAll_cons_told hquiet package g rest state
  rw [writeAll_cons_value, htold]
  generalize (sink.put state _ _).value = reply at hput
  rcases reply with ⟨(reason | cause) | _, after⟩
  · refine ⟨?_, rfl⟩
    change _ = ((sink.writeAll package rest after).value.1.map id, _)
    rw [Except.map_id]
    rfl
  · exact absurd rfl (hput cause)
  · exact ⟨rfl, rfl⟩

theorem WritesOut.cons (hquiet : sink.Quiet)
    (hput : ∀ cause, (sink.put state (g.file package).1 (g.file package).2).value.1 ≠
      .error (.malformed cause))
    (h : sink.WritesOut (rest.map (Group.file package))
      (sink.put state (g.file package).1 (g.file package).2).value.2
      (sink.writeAll package rest (sink.put state (g.file package).1 (g.file package).2).value.2)) :
    sink.WritesOut ((g :: rest).map (Group.file package)) state
      (sink.writeAll package (g :: rest) state) := by
  obtain ⟨hvalue, htold⟩ := writeAll_cons_borne hquiet hput rest
  rw [List.map_cons]
  constructor
  · exact (sink.bears_cons _ _ _).mpr ⟨hput, h.bears⟩
  · rw [hvalue, h.value, taken_putAll_cons]
    rfl
  · rw [htold, h.told, account_putAll_cons]

theorem BreaksOff.cons {front : List (String × String)} {file : String × String}
    {cause : Malformation} (hquiet : sink.Quiet)
    (hput : ∀ cause, (sink.put state (g.file package).1 (g.file package).2).value.1 ≠
      .error (.malformed cause))
    (h : sink.BreaksOff front file cause
      (sink.put state (g.file package).1 (g.file package).2).value.2
      (sink.writeAll package rest (sink.put state (g.file package).1 (g.file package).2).value.2)) :
    sink.BreaksOff (g.file package :: front) file cause state
      (sink.writeAll package (g :: rest) state) := by
  obtain ⟨hvalue, htold⟩ := writeAll_cons_borne hquiet hput rest
  constructor
  · exact (sink.bears_cons _ _ _).mpr ⟨hput, h.bears⟩
  · exact h.breaks
  · rw [hvalue, h.value, putAll_cons]
    rfl
  · rw [htold, h.told, account_putAll_cons, List.append_assoc]

theorem breaksOff_nil {cause : Malformation} (hquiet : sink.Quiet)
    (hput : (sink.put state (g.file package).1 (g.file package).2).value.1 =
      .error (.malformed cause)) :
    sink.BreaksOff [] (g.file package) cause state (sink.writeAll package (g :: rest) state) := by
  have htold := writeAll_cons_told hquiet package g rest state
  refine ⟨sink.bears_nil state, hput, ?_, ?_⟩
  · rw [writeAll_cons_value]
    change _ = (_, (sink.put state _ _).value.2)
    generalize (sink.put state _ _).value = reply at hput
    obtain ⟨answer, after⟩ := reply
    rw [show answer = .error (.malformed cause) from hput]
  · rw [htold, hput]
    rfl

end Step

/-- Writing either puts every group or ends at the first one that ends it. -/
theorem writeAll_cases (hquiet : sink.Quiet) (package : String) (groups : List Group) (state : σ) :
    sink.WritesOut (groups.map (Group.file package)) state
        (sink.writeAll package groups state) ∨
      ∃ front g back cause, groups = front ++ g :: back ∧
        sink.BreaksOff (front.map (Group.file package)) (g.file package) cause state
          (sink.writeAll package groups state) := by
  -- Every file that is put leaves another state, so the state is any in the induction.
  induction groups generalizing state with
  | nil => exact .inl ⟨sink.bears_nil state, rfl, rfl⟩
  | cons g rest ih =>
    by_cases hput : ∃ cause, (sink.put state (g.file package).1 (g.file package).2).value.1 =
        .error (.malformed cause)
    · obtain ⟨cause, hcause⟩ := hput
      exact .inr ⟨[], g, rest, cause, rfl, breaksOff_nil hquiet hcause⟩
    · have hborne := not_exists.mp hput
      rcases ih (sink.put state (g.file package).1 (g.file package).2).value.2 with
        h | ⟨front, last, back, cause, rfl, h⟩
      · exact .inl (h.cons hquiet hborne)
      · exact .inr ⟨g :: front, last, back, cause, rfl, h.cons hquiet hborne⟩

end Sink

theorem GroupTable.routeAll_told (t : GroupTable)
    (items : List (Except PassError Declaration)) :
    (t.routeAll items).log.filter (¬ ·.IsCalm) =
      ((t.routeAll items).value.2.map fun e => .passRefused e.message).toList := by
  obtain ⟨created, hlog⟩ := routeAll_log t items
  have hcreated : (created.map Notice.groupCreated).filter (¬ ·.IsCalm) = [] := by
    apply filter_not_calm
    intro n hn
    obtain ⟨name, -, rfl⟩ := List.mem_map.mp hn
    simp [Notice.isCalm_iff, Notice.level?, Notice.asked?]
  have hrefused (e : PassError) : ¬ (Notice.passRefused e.message).IsCalm := by
    simp [Notice.isCalm_iff, Notice.level?]
  rw [hlog, List.filter_append, hcreated]
  cases (t.routeAll items).value.2 <;> simp [hrefused]

namespace Session

section Run
variable {σ : Type} {s : Session} (source : ElementSource) (resources : Option Resources)
  (sink : Sink σ) (state : σ)

theorem run_told_of_refused (hs : s.completed = false) {e : PassError}
    (h : (s.routing source resources).value.2 = some e) :
    (s.run source resources sink state).log.filter (¬ ·.IsCalm) = [.passRefused e.message] := by
  have hrouted := GroupTable.empty.routeAll_told ((s.items source resources).map Item.outcome)
  change (s.routing source resources).log.filter _ =
    ((s.routing source resources).value.2.map _).toList at hrouted
  rw [(run_of_refused source resources sink state hs h).2, List.filter_append,
    filter_not_calm (s.loadConfig_log resources), hrouted, h]
  rfl

theorem run_told_of_routed (hs : s.completed = false) {groups : GroupTable}
    (h : (s.routing source resources).value = (groups, none)) :
    (s.run source resources sink state).log.filter (¬ ·.IsCalm) =
      (sink.writeGroups groups (s.packageFor resources) state).log.filter (¬ ·.IsCalm) := by
  have hrouted := GroupTable.empty.routeAll_told ((s.items source resources).map Item.outcome)
  change (s.routing source resources).log.filter _ =
    ((s.routing source resources).value.2.map _).toList at hrouted
  have hwriting (count : ℕ) (package : String) : (Notice.writing count package).IsCalm := by
    simp [Notice.isCalm_iff, Notice.level?, Notice.asked?]
  rw [run_idle source resources sink state hs]
  simp only [Logged.bind_log, Logged.tell_log, List.filter_append,
    filter_not_calm (s.loadConfig_log resources), hrouted, h]
  generalize sink.writeGroups groups (s.packageFor resources) state = written
  rcases written with ⟨⟨cause | names, after⟩, log⟩ <;> simp [hwriting]

end Run

abbrev filesOf (s : Session) (resources : Option Resources) (groups : List Group) :
    List (String × String) :=
  groups.map (Group.file (s.packageFor resources))

section Ends
variable {σ : Type} (s : Session) (resources : Option Resources) (sink : Sink σ) (state : σ)
  (table : GroupTable) (ran : Logged (Ran σ))

/-- The pass has put every group of its table and is complete. -/
structure Completes : Prop where
  bears : sink.Bears (s.filesOf resources table.groups) state
  value : ran.value = ⟨⟨s.configName, s.packageFor resources, table, true⟩,
    (sink.putAll (s.filesOf resources table.groups) state).2,
    .ok (Sink.taken (s.filesOf resources table.groups)
      (sink.putAll (s.filesOf resources table.groups) state).1)⟩
  told : ran.log.filter (¬ ·.IsCalm) = Sink.account (s.filesOf resources table.groups)
    (sink.putAll (s.filesOf resources table.groups) state).1

/-- The pass has put the groups in front of one that ended it. It has its table and its package
but is not complete, and the groups behind that one were never asked for. -/
structure BreaksOffAt (front : List Group) (g : Group) (cause : Malformation) : Prop where
  ahead : ∃ back, table.groups = front ++ g :: back
  bears : sink.Bears (s.filesOf resources front) state
  breaks : (sink.put (sink.putAll (s.filesOf resources front) state).2
      (g.file (s.packageFor resources)).1 (g.file (s.packageFor resources)).2).value.1 =
    .error (.malformed cause)
  session : ran.value.session = ⟨s.configName, s.packageFor resources, table, false⟩
  outcome : ran.value.outcome = .error (.malformed cause)
  told : ran.log.filter (¬ ·.IsCalm) =
    Sink.account (s.filesOf resources front) (sink.putAll (s.filesOf resources front) state).1 ++
      [.sinkAsked (g.file (s.packageFor resources)).1]

end Ends

section Run
variable {σ : Type} {s : Session} (source : ElementSource) (resources : Option Resources)
  {sink : Sink σ} (state : σ)

theorem run_completes_or_breaksOff (hs : s.completed = false) (hquiet : sink.Quiet)
    {table : GroupTable} (h : (s.routing source resources).value = (table, none)) :
    let ran := s.run source resources sink state
    s.Completes resources sink state table ran ∨
      ∃ front g cause, s.BreaksOffAt resources sink state table ran front g cause := by
  intro ran
  have hvalue := run_of_routed source resources sink state hs h
  have htold := run_told_of_routed source resources sink state hs h
  rcases Sink.writeAll_cases hquiet (s.packageFor resources) table.groups state with
    hout | ⟨front, g, back, cause, hgroups, hoff⟩
  · left
    refine ⟨hout.bears, ?_, htold.trans hout.told⟩
    rw [hvalue, Sink.writeGroups, hout.value]
  · right
    refine ⟨front, g, cause, ⟨back, hgroups⟩, hoff.bears, hoff.breaks, ?_, ?_,
      htold.trans hoff.told⟩
    · rw [hvalue, Sink.writeGroups, hoff.value]
    · rw [hvalue, Sink.writeGroups, hoff.value]

/-- The three ends of a pass: it is refused, it completes or it breaks off. -/
theorem run_ends (hs : s.completed = false) (hquiet : sink.Quiet) :
    let ran := s.run source resources sink state
    (∃ e, FirstOffence (s.items source resources) e ∧
        ran.value = ⟨{ s with groups := .empty }, state, .error (.refused e)⟩ ∧
        ran.log.filter (¬ ·.IsCalm) = [.passRefused e.message]) ∨
      ∃ ds table, PassesWith (s.items source resources) (table, none) ds ∧
        (s.Completes resources sink state table ran ∨
          ∃ front g cause, s.BreaksOffAt resources sink state table ran front g cause) := by
  intro ran
  rcases routing_cases source resources (s := s) with
    ⟨ds, hitems, hfree, hrouted⟩ | ⟨e, hfirst, hrouted⟩
  · right
    exact ⟨ds, _, ⟨hitems, hfree, rfl⟩,
      run_completes_or_breaksOff source resources state hs hquiet hrouted⟩
  · left
    exact ⟨e, hfirst, (run_of_refused source resources sink state hs hrouted).1,
      run_told_of_refused source resources sink state hs hrouted⟩

end Run

end Session

end PreferenceAccessors
