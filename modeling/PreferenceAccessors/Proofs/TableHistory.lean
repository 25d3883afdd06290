import PreferenceAccessors.Proofs.Routed
import PreferenceAccessors.Proofs.Writing

/-!
What a history makes of a table. Groups are asked for, fragments are added to
groups that are there, and questions are put, in any order and across groups.
The table is then a function of the history: one group for each name asked for,
in order of first asking, with the fragments added to it in order and, as its
accessors, those that came with them and are not empty. A longer history only
adds to it.
-/

namespace PreferenceAccessors.GroupTable

inductive Query
  | names
  | length
  | contains (name : String)
  | preamble (group : String)
  | fragments (group : String)
  | hasAccessor (group accessor : String)
  | render (group package : String)

inductive Answer
  | texts (texts : List String)
  | number (n : Nat)
  | verdict (holds : Bool)
  | text (text : String)
  | noSuchGroup

def ofGroup (t : GroupTable) (name : String) (f : Group → Answer) : Answer :=
  match t.find? name with
  | some g => f g
  | none => .noSuchGroup

def answer (t : GroupTable) : Query → Answer
  | .names => .texts t.names
  | .length => .number t.groups.length
  | .contains name => .verdict (t.contains name)
  | .preamble group => t.ofGroup group fun g => .text g.preamble
  | .fragments group => t.ofGroup group fun g => .texts g.fragments
  | .hasAccessor group accessor => t.ofGroup group fun g => .verdict (g.hasAccessor accessor)
  | .render group package => t.ofGroup group fun g => .text (g.render package)

inductive Request
  | ensure (name : String)
  | append (group fragment : String) (accessor : Option String)
  | ask (query : Query)

namespace Request

def asked? : Request → Option String
  | .ensure name => some (resolve name)
  | _ => none

def fragmentFor? (name : String) : Request → Option String
  | .append group fragment _ => if group = name then some fragment else none
  | _ => none

def accessorFor? (name : String) : Request → Option String
  | .append group _ (some accessor) =>
    if group = name ∧ accessor ≠ "" then some accessor else none
  | _ => none

structure Spares (name : String) (request : Request) : Prop where
  fragment : request.fragmentFor? name = none
  accessor : request.accessorFor? name = none

theorem Spares.append {group name : String} (fragment : String) (accessor : Option String)
    (h : name ≠ group) : (Request.append group fragment accessor).Spares name := by
  cases accessor <;> constructor <;> simp [fragmentFor?, accessorFor?, h.symm]

def isQuery : Request → Bool
  | .ask _ => true
  | _ => false

def Allowed (t : GroupTable) : Request → Prop
  | .append group _ _ => group ∈ t.names
  | _ => True

instance (t : GroupTable) : (request : Request) → Decidable (request.Allowed t)
  | .append group _ _ => inferInstanceAs (Decidable (group ∈ t.names))
  | .ensure _ => inferInstanceAs (Decidable True)
  | .ask _ => inferInstanceAs (Decidable True)

end Request

def serve (t : GroupTable) : Request → Logged (Option Answer × GroupTable)
  | .ensure name => do
    let (_, t) ← t.ensure name
    pure (none, t)
  | .append group fragment accessor => pure (none, t.append group fragment accessor)
  | .ask query => pure (some (t.answer query), t)

def after (t : GroupTable) (requests : List Request) : GroupTable :=
  requests.foldl (fun now request => (now.serve request).value.2) t

def OnlyToExisting (t : GroupTable) : List Request → Prop
  | [] => True
  | request :: rest => request.Allowed t ∧ (t.serve request).value.2.OnlyToExisting rest

instance decidableOnlyToExisting (t : GroupTable) :
    (requests : List Request) → Decidable (t.OnlyToExisting requests)
  | [] => inferInstanceAs (Decidable True)
  | request :: rest =>
    haveI := decidableOnlyToExisting (t.serve request).value.2 rest
    inferInstanceAs (Decidable (request.Allowed t ∧ _))

section History
variable (requests : List Request)

def asked : List String :=
  requests.filterMap Request.asked?

def fragmentsFor (name : String) : List String :=
  requests.filterMap (Request.fragmentFor? name)

def accessorsFor (name : String) : List String :=
  requests.filterMap (Request.accessorFor? name)

def groupFrom (name : String) : Group :=
  ⟨name, fragmentsFor requests name, (accessorsFor requests name).eraseDups⟩

/-- The table that a history says there is. -/
def recorded : GroupTable :=
  ⟨(asked requests).eraseDups.map (groupFrom requests)⟩

theorem asked_append (more : List Request) :
    asked (requests ++ more) = asked requests ++ asked more :=
  List.filterMap_append

theorem asked_concat_ensure (name : String) :
    asked (requests ++ [.ensure name]) = asked requests ++ [resolve name] :=
  asked_append requests _

theorem asked_concat_of_none {request : Request} (h : request.asked? = none) :
    asked (requests ++ [request]) = asked requests := by
  have hlast : asked [request] = [] := List.filterMap_cons_none h
  rw [asked_append, hlast, List.append_nil]

theorem fragmentsFor_append (more : List Request) (name : String) :
    fragmentsFor (requests ++ more) name = fragmentsFor requests name ++ fragmentsFor more name :=
  List.filterMap_append

theorem accessorsFor_append (more : List Request) (name : String) :
    accessorsFor (requests ++ more) name = accessorsFor requests name ++ accessorsFor more name :=
  List.filterMap_append

theorem mem_accessorsFor {name accessor : String} :
    accessor ∈ accessorsFor requests name ↔
      accessor ≠ "" ∧ ∃ fragment, .append name fragment (some accessor) ∈ requests := by
  unfold accessorsFor
  rw [List.mem_filterMap]
  constructor
  · rintro ⟨request, hmem, hfor⟩
    unfold Request.accessorFor? at hfor
    split at hfor
    · rw [Option.ite_none_right_eq_some] at hfor
      obtain ⟨⟨rfl, hne⟩, ⟨⟩⟩ := hfor
      exact ⟨hne, _, hmem⟩
    · simp at hfor
  · rintro ⟨hne, fragment, hmem⟩
    exact ⟨_, hmem, if_pos ⟨rfl, hne⟩⟩

end History

theorem after_append (t : GroupTable) (requests more : List Request) :
    t.after (requests ++ more) = (t.after requests).after more :=
  List.foldl_append

theorem onlyToExisting_append (t : GroupTable) (requests more : List Request) :
    t.OnlyToExisting (requests ++ more) ↔
      t.OnlyToExisting requests ∧ (t.after requests).OnlyToExisting more := by
  induction requests generalizing t with
  | nil => simp [OnlyToExisting, after]
  | cons request rest ih =>
    simp only [List.cons_append, OnlyToExisting, ih, and_assoc]
    rfl

theorem serve_of_isQuery (t : GroupTable) {request : Request} (h : request.isQuery = true) :
    (t.serve request).value.2 = t := by
  cases request with
  | ask query => rfl
  | _ => simp [Request.isQuery] at h

theorem after_filter_not_isQuery (t : GroupTable) (requests : List Request) :
    t.after (requests.filter fun request => !request.isQuery) = t.after requests := by
  induction requests generalizing t with
  | nil => rfl
  | cons request rest ih =>
    cases hquery : request.isQuery with
    | true =>
      rw [List.filter_cons_of_neg (by simp [hquery]), ih]
      exact congrArg (after · rest) (t.serve_of_isQuery hquery).symm
    | false =>
      rw [List.filter_cons_of_pos (by simp [hquery])]
      exact ih _

theorem names_after (requests : List Request) :
    (empty.after requests).names = (asked requests).eraseDups := by
  induction requests using List.reverseRecOn with
  | nil => rfl
  | append_singleton requests request ih =>
    rw [after_append]
    cases request with
    | ensure name =>
      change ((empty.after requests).ensure name).value.2.names = _
      rw [names_ensure, ih, asked_concat_ensure, eraseDups_concat]
      simp only [List.mem_eraseDups]
    | append group fragment accessor =>
      change ((empty.after requests).append group fragment accessor).names = _
      rw [names_append, ih, asked_concat_of_none requests rfl]
    | ask query =>
      rw [asked_concat_of_none requests rfl]
      exact ih

theorem OnlyToExisting.mem_asked {requests : List Request} {group fragment : String}
    {accessor : Option String} (h : empty.OnlyToExisting requests)
    (hmem : .append group fragment accessor ∈ requests) : group ∈ asked requests := by
  obtain ⟨before, rest, rfl⟩ := List.append_of_mem hmem
  have hthere : group ∈ (empty.after before).names := ((onlyToExisting_append _ _ _).mp h).2.1
  rw [names_after, List.mem_eraseDups] at hthere
  rw [asked_append]
  exact List.mem_append_left _ hthere

theorem OnlyToExisting.groupFrom_eq_new {requests : List Request} {name : String}
    (h : empty.OnlyToExisting requests) (hname : name ∉ asked requests) :
    groupFrom requests name = .new name := by
  have hspared : ∀ request ∈ requests, request.Spares name := by
    intro request hmem
    cases request with
    | append group fragment accessor =>
      exact .append fragment accessor fun heq => hname (heq ▸ h.mem_asked hmem)
    | _ => exact ⟨rfl, rfl⟩
  have hfragments : fragmentsFor requests name = [] :=
    List.filterMap_eq_nil_iff.mpr fun request hmem => (hspared request hmem).fragment
  have haccessors : accessorsFor requests name = [] :=
    List.filterMap_eq_nil_iff.mpr fun request hmem => (hspared request hmem).accessor
  rw [groupFrom, hfragments, haccessors]
  rfl

theorem groupFrom_concat_append (requests : List Request) (name fragment : String)
    (accessor : Option String) :
    groupFrom (requests ++ [.append name fragment accessor]) name =
      (groupFrom requests name).append fragment accessor := by
  have hfragments : fragmentsFor [.append name fragment accessor] name = [fragment] :=
    List.filterMap_cons_some (if_pos rfl)
  rw [groupFrom, fragmentsFor_append, accessorsFor_append, hfragments]
  cases accessor with
  | none =>
    have hlast : accessorsFor [.append name fragment none] name = [] := rfl
    rw [hlast, List.append_nil]
    rfl
  | some accessor =>
    by_cases hempty : accessor = ""
    · have hlast : accessorsFor [.append name fragment (some accessor)] name = [] :=
        List.filterMap_cons_none (if_neg fun h => h.2 hempty)
      rw [hlast, List.append_nil]
      simp [groupFrom, Group.append, hempty]
    · have hlast : accessorsFor [.append name fragment (some accessor)] name = [accessor] :=
        List.filterMap_cons_some (if_pos ⟨rfl, hempty⟩)
      rw [hlast, eraseDups_concat]
      simp [groupFrom, Group.append, hempty]

theorem groupFrom_concat_of_spares (requests : List Request) {request : Request} {name : String}
    (h : request.Spares name) :
    groupFrom (requests ++ [request]) name = groupFrom requests name := by
  have hfragments : fragmentsFor [request] name = [] := List.filterMap_cons_none h.fragment
  have haccessors : accessorsFor [request] name = [] := List.filterMap_cons_none h.accessor
  rw [groupFrom, fragmentsFor_append, accessorsFor_append, hfragments, haccessors,
    List.append_nil, List.append_nil, groupFrom]

theorem ensure_recorded {requests : List Request} (h : empty.OnlyToExisting requests)
    (name : String) :
    ((recorded requests).ensure name).value.2 = recorded (requests ++ [.ensure name]) := by
  have hgroup : groupFrom (requests ++ [.ensure name]) = groupFrom requests :=
    funext fun other => groupFrom_concat_of_spares requests ⟨rfl, rfl⟩
  unfold ensure
  rw [recorded, recorded, find?_tabulated fun _ => rfl, asked_concat_ensure, hgroup,
    eraseDups_concat]
  simp only [List.mem_eraseDups]
  split_ifs with hmem
  · rfl
  · -- The group begins empty, and nothing can have been added to it before.
    simp only [Logged.bind_value, Logged.pure_value, List.map_append, List.map_singleton,
      h.groupFrom_eq_new hmem]

theorem append_recorded (requests : List Request) (group fragment : String)
    (accessor : Option String) :
    (recorded requests).append group fragment accessor =
      recorded (requests ++ [.append group fragment accessor]) := by
  rw [recorded, recorded, append_tabulated fun _ => rfl, asked_concat_of_none requests rfl]
  congr 1
  apply List.map_congr_left
  intro name _
  split_ifs with h
  · rw [h, groupFrom_concat_append]
  · rw [groupFrom_concat_of_spares requests (.append fragment accessor h)]

theorem serve_recorded {requests : List Request} (h : empty.OnlyToExisting requests)
    (request : Request) :
    ((recorded requests).serve request).value.2 = recorded (requests ++ [request]) := by
  cases request with
  | ensure name => exact ensure_recorded h name
  | append group fragment accessor => exact append_recorded requests group fragment accessor
  | ask query =>
    have hgroup : groupFrom (requests ++ [.ask query]) = groupFrom requests :=
      funext fun name => groupFrom_concat_of_spares requests ⟨rfl, rfl⟩
    rw [recorded, recorded, asked_concat_of_none requests rfl, hgroup]
    rfl

theorem after_eq_recorded {requests : List Request} (h : empty.OnlyToExisting requests) :
    empty.after requests = recorded requests := by
  induction requests using List.reverseRecOn with
  | nil => rfl
  | append_singleton requests request ih =>
    have hbefore := ((onlyToExisting_append _ _ _).mp h).1
    rw [after_append, ih hbefore, ← serve_recorded hbefore]
    rfl

/-- What a history has made of a table. -/
structure Records (t : GroupTable) (requests : List Request) : Prop where
  names_eq : t.names = (asked requests).eraseDups
  nodup_names : t.names.Nodup
  solid : ∀ name ∈ t.names, Text.isBlankText name = false
  iterated : t.groups.map some = t.names.map t.find?
  length_eq : t.groups.length = t.names.length
  contains_iff : ∀ name, t.contains name = true ↔ name ∈ t.names
  missing_iff : ∀ name, t.find? name = none ↔ name ∉ t.names
  stored : ∀ g ∈ t.groups, t.find? g.name = some g
  own : ∀ name g, t.find? name = some g →
    g.name = name ∧ g.preamble ++ "\n" = closeBlocks (Group.headerLines name)
  ensured : ∀ name, resolve name ∈ t.names →
    ∃ g, t.find? (resolve name) = some g ∧ t.ensure name = pure (g, t)
  fragments_eq : ∀ g ∈ t.groups, g.fragments = fragmentsFor requests g.name
  hasAccessor_iff : ∀ g ∈ t.groups, ∀ accessor, g.hasAccessor accessor = true ↔
    accessor ≠ "" ∧ ∃ fragment, .append g.name fragment (some accessor) ∈ requests

/-- Every name and every fragment is still there, at its place. -/
structure Extends (later earlier : GroupTable) : Prop where
  names : earlier.names <+: later.names
  groups : ∀ g ∈ earlier.groups, ∃ g', later.find? g.name = some g' ∧
    g.fragments <+: g'.fragments ∧ ∀ a, g.hasAccessor a = true → g'.hasAccessor a = true

theorem ensure_of_mem {t : GroupTable} {name : String} (h : resolve name ∈ t.names) :
    ∃ g, t.find? (resolve name) = some g ∧ t.ensure name = pure (g, t) := by
  obtain ⟨g, hfound⟩ := Option.ne_none_iff_exists'.mp fun hnone => find?_eq_none_iff.mp hnone h
  refine ⟨g, hfound, ?_⟩
  rw [ensure, hfound]

section Recorded
variable (requests : List Request)

theorem names_recorded : (recorded requests).names = (asked requests).eraseDups :=
  names_tabulated (fun _ => rfl) _

theorem find?_recorded {name : String} (h : name ∈ asked requests) :
    (recorded requests).find? name = some (groupFrom requests name) := by
  rw [recorded, find?_tabulated fun _ => rfl, if_pos (List.mem_eraseDups.mpr h)]

theorem mem_groups_recorded {g : Group} :
    g ∈ (recorded requests).groups ↔ ∃ name ∈ asked requests, groupFrom requests name = g := by
  simp only [recorded, List.mem_map, List.mem_eraseDups]

theorem hasAccessor_groupFrom (name accessor : String) :
    (groupFrom requests name).hasAccessor accessor = true ↔
      accessor ∈ accessorsFor requests name := by
  simp only [Group.hasAccessor, groupFrom, List.contains_iff_mem, List.mem_eraseDups]

theorem not_isBlankText_of_mem_asked {name : String} (h : name ∈ asked requests) :
    Text.isBlankText name = false := by
  obtain ⟨request, -, hasked⟩ := List.mem_filterMap.mp h
  cases request with
  | ensure other =>
    obtain rfl : resolve other = name := Option.some.inj hasked
    exact not_isBlankText_resolve other
  | _ => simp [Request.asked?] at hasked

theorem records_recorded : (recorded requests).Records requests := by
  constructor
  case names_eq => exact names_recorded requests
  case nodup_names => exact names_recorded requests ▸ nodup_eraseDups _
  case solid =>
    intro name hname
    rw [names_recorded, List.mem_eraseDups] at hname
    exact not_isBlankText_of_mem_asked requests hname
  case iterated =>
    rw [names_recorded, recorded, List.map_map]
    refine List.map_congr_left fun name hname => ?_
    exact (find?_recorded requests (List.mem_eraseDups.mp hname)).symm
  case length_eq => exact (List.length_map _).symm
  case contains_iff => exact fun name => List.contains_iff_mem
  case missing_iff => exact fun name => find?_eq_none_iff
  case stored =>
    intro g hg
    obtain ⟨name, hname, rfl⟩ := (mem_groups_recorded requests).mp hg
    exact find?_recorded requests hname
  case own =>
    intro name g hfound
    have hname := name_of_find? hfound
    exact ⟨hname, hname ▸ g.closeBlocks_header.symm⟩
  case ensured => exact fun name hname => ensure_of_mem hname
  case fragments_eq =>
    intro g hg
    obtain ⟨name, -, rfl⟩ := (mem_groups_recorded requests).mp hg
    rfl
  case hasAccessor_iff =>
    intro g hg accessor
    obtain ⟨name, -, rfl⟩ := (mem_groups_recorded requests).mp hg
    rw [hasAccessor_groupFrom, mem_accessorsFor]
    rfl

theorem recorded_append_extends (more : List Request) :
    (recorded (requests ++ more)).Extends (recorded requests) := by
  constructor
  case names =>
    rw [names_recorded, names_recorded, asked_append, List.eraseDups_append]
    exact List.prefix_append _ _
  case groups =>
    intro g hg
    obtain ⟨name, hname, rfl⟩ := (mem_groups_recorded requests).mp hg
    have hlater : name ∈ asked (requests ++ more) :=
      asked_append requests more ▸ List.mem_append_left _ hname
    refine ⟨groupFrom (requests ++ more) name, find?_recorded _ hlater, ?_, fun a ha => ?_⟩
    · exact ⟨_, (fragmentsFor_append requests more name).symm⟩
    · rw [hasAccessor_groupFrom, accessorsFor_append]
      exact List.mem_append_left _ ((hasAccessor_groupFrom requests name a).mp ha)

end Recorded

/-- As long as fragments are added to groups that are there, a table is what its history says. What
was there at any time stays at its place, and questions leave no trace. -/
theorem after_records {requests : List Request} (h : empty.OnlyToExisting requests) :
    let t := empty.after requests
    t.Records requests ∧
    (∀ before rest, requests = before ++ rest → t.Extends (empty.after before)) ∧
    empty.after (requests.filter fun request => !request.isQuery) = t ∧
    ∀ query, t.serve (.ask query) = pure (some (t.answer query), t) := by
  intro t
  have ht : t = recorded requests := after_eq_recorded h
  refine ⟨?_, ?_, after_filter_not_isQuery empty requests, fun query => rfl⟩
  · rw [ht]
    exact records_recorded requests
  · rintro before rest rfl
    have hbefore := ((onlyToExisting_append _ _ _).mp h).1
    rw [ht, after_eq_recorded hbefore]
    exact recorded_append_extends before rest

def Sample.history : List Request :=
  [.ensure " ", .append defaultGroupName "  // a" (some ""), .ensure "B",
    .append "B" "  // b" (some "X"), .ask .names, .ensure defaultGroupName,
    .append defaultGroupName "  // c" (some "X"), .ensure "", .append "B" "  // d" (some "X"),
    .ask (.render "B" "com"), .append defaultGroupName "  // e" none]

theorem sample_records :
    let t := empty.after Sample.history
    empty.OnlyToExisting Sample.history ∧ t.Records Sample.history ∧
      t.Extends (empty.after (Sample.history.take 4)) ∧ t.names = [defaultGroupName, "B"] ∧
      t.groups.map Group.fragments = [["  // a", "  // c", "  // e"], ["  // b", "  // d"]] := by
  intro t
  have hallowed : empty.OnlyToExisting Sample.history := by decide +kernel
  obtain ⟨hrecords, hextends, -, -⟩ := after_records hallowed
  have hcut : Sample.history = Sample.history.take 4 ++ Sample.history.drop 4 :=
    (List.take_append_drop 4 Sample.history).symm
  have hasked : asked Sample.history =
      [defaultGroupName, "B", defaultGroupName, defaultGroupName] := by decide +kernel
  refine ⟨hallowed, hrecords, hextends _ _ hcut, ?_, ?_⟩
  · rw [hrecords.names_eq, hasked]
    decide
  · decide +kernel

end PreferenceAccessors.GroupTable
