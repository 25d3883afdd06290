import PreferenceAccessors.Proofs.History

/-!
What the table of a session holds at any time. Beside a history runs the list of
the declarations that were routed into the current table: a manual route adds
one when it is not refused, a pass that is refused leaves none, and any other
pass leaves its own. The groups are then exactly the members of that list, and
no two accessor pairs of a table meet in a class and method or in a store and key.
-/

namespace PreferenceAccessors

theorem GroupTable.not_isBlankText_resolve (name : String) :
    Text.isBlankText (resolve name) = false := by
  unfold resolve
  split_ifs with h
  · decide
  · simpa using h

def Declaration.methods (d : Declaration) : List (String × String) :=
  [(d.groupName, "get" ++ accessorName d.key), (d.groupName, "set" ++ accessorName d.key)]

/-- The store and the key under which the value of a declaration is kept. -/
def Declaration.slot (d : Declaration) : String × String :=
  (d.groupName, d.key)

namespace GroupTable

/-- The groups of a table are those of these declarations, and these do not meet. -/
structure Holds (t : GroupTable) (ds : List Declaration) : Prop where
  nodup_names : t.names.Nodup
  stored : ∀ g ∈ t.groups, t.find? g.name = some g ∧ Text.isBlankText g.name = false
  covered : ∀ d ∈ ds, d.groupName ∈ t.names
  fragments : ∀ g ∈ t.groups,
    g.fragments.map .ok = (membersOf ds g.name).map fun d => d.kind.emit d d.source
  accessors : ∀ g ∈ t.groups, g.accessors = (membersOf ds g.name).map fun d => accessorName d.key
  named : ∀ g ∈ t.groups, "" ∉ g.accessors
  nodup_accessors : ∀ g ∈ t.groups, g.accessors.Nodup
  length_accessors : ∀ g ∈ t.groups, g.accessors.length = g.fragments.length
  nodup_keys : ∀ g ∈ t.groups, ((membersOf ds g.name).map Declaration.key).Nodup
  nodup_methods : (ds.flatMap Declaration.methods).Nodup
  nodup_slots : (ds.map Declaration.slot).Nodup

end GroupTable

theorem Kind.emit_source (d : Declaration) : d.kind.emit d d.source = .ok d.fragment := by
  rw [← Kind.emit_kind]
  cases hsource : d.source <;> simp [Kind.emit, hsource]

theorem get_append_ne_set (a b : String) : "get" ++ a ≠ "set" ++ b := by
  intro h
  have hchars := congrArg String.toList h
  simp [String.toList_append] at hchars

namespace Faultless
variable {ds : List Declaration}

theorem nodup_methods (h : Faultless ds) : (ds.flatMap Declaration.methods).Nodup := by
  rw [List.nodup_flatMap]
  refine ⟨fun d _ => by simp [Declaration.methods], h.distinct.imp ?_⟩
  intro d e hclash
  simp only [Declaration.Clashes, Declaration.accessor, not_and] at hclash
  simp only [Function.onFun, Declaration.methods, List.disjoint_left, List.mem_cons,
    List.not_mem_nil, or_false]
  rintro m (rfl | rfl) (heq | heq) <;> obtain ⟨hgroup, hname⟩ := Prod.mk.inj heq
  · exact hclash hgroup (String.append_right_inj _ |>.mp hname)
  · exact get_append_ne_set _ _ hname
  · exact get_append_ne_set _ _ hname.symm
  · exact hclash hgroup (String.append_right_inj _ |>.mp hname)

theorem nodup_slots (h : Faultless ds) : (ds.map Declaration.slot).Nodup := by
  refine List.pairwise_map.mpr (h.distinct.imp ?_)
  intro d e hclash heq
  obtain ⟨hgroup, hkey⟩ := Prod.mk.inj heq
  exact hclash ⟨hgroup, congrArg accessorName hkey⟩

theorem nodup_accessors (h : Faultless ds) (name : String) :
    ((membersOf ds name).map fun d => accessorName d.key).Nodup := by
  refine List.pairwise_map.mpr ((h.members name).distinct.imp_of_mem ?_)
  intro d e hd he hclash heq
  have hgroup := (groupName_of_mem_membersOf hd).trans (groupName_of_mem_membersOf he).symm
  exact hclash ⟨hgroup, heq⟩

end Faultless

namespace GroupTable

theorem nodup_names_grouped (asked : List String) (ds : List Declaration) :
    (grouped asked ds).names.Nodup := by
  rw [names_grouped]
  exact nodup_eraseDups asked

/-- A table made by asking for names and routing declarations. -/
structure ComesFrom (t : GroupTable) (asked : List String) (ds : List Declaration) : Prop where
  eq_grouped : t = grouped asked ds
  covers : Covers asked ds
  faultless : Faultless ds
  solid : ∀ name ∈ asked, Text.isBlankText name = false

theorem comesFrom_empty : ComesFrom .empty [] [] :=
  ⟨rfl, fun _ h => absurd h List.not_mem_nil, faultless_nil, fun _ h => absurd h List.not_mem_nil⟩

/-- One step: the name is asked for, and the declaration joins when it is not refused. -/
theorem ComesFrom.route {t : GroupTable} {asked : List String} {ds : List Declaration}
    (h : t.ComesFrom asked ds) (d : Declaration) :
    (t.route d).value.1.ComesFrom (asked ++ [d.groupName])
      (if (t.route d).value.2 = none then ds ++ [d] else ds) := by
  obtain ⟨rfl, hcovers, hfree, hsolid⟩ := h
  have hasked : ∀ name ∈ asked ++ [d.groupName], Text.isBlankText name = false := by
    intro name hname
    rcases List.mem_append.mp hname with hname | hname
    · exact hsolid name hname
    · rw [List.mem_singleton.mp hname]
      exact not_isBlankText_resolve d.group
  have hstep := route_grouped hcovers d
  cases hfault : d.fault? ds with
  | some e =>
    rw [hfault] at hstep
    rw [hstep, if_neg (Option.some_ne_none e)]
    exact ⟨rfl, fun x hx => List.mem_append_left _ (hcovers x hx), hfree, hasked⟩
  | none =>
    rw [hfault] at hstep
    rw [hstep, if_pos rfl]
    exact ⟨rfl, hcovers.concat, faultless_concat.mpr ⟨hfree, hfault⟩, hasked⟩

theorem comesFrom_ofDeclarations {ds : List Declaration} (h : Faultless ds) :
    (ofDeclarations ds).ComesFrom (ds.map Declaration.groupName) ds := by
  refine ⟨rfl, fun d hd => List.mem_map_of_mem hd, h, fun name hname => ?_⟩
  obtain ⟨d, -, rfl⟩ := List.mem_map.mp hname
  exact not_isBlankText_resolve d.group

theorem ComesFrom.holds {t : GroupTable} {asked : List String} {ds : List Declaration}
    (h : t.ComesFrom asked ds) : t.Holds ds := by
  obtain ⟨rfl, hcovers, hfree, hsolid⟩ := h
  have hgroup : ∀ {g}, g ∈ (grouped asked ds).groups →
      ∃ name ∈ asked, g = .ofDeclarations name (membersOf ds name) := by
    intro g hg
    obtain ⟨name, hname, rfl⟩ := List.mem_map.mp hg
    exact ⟨name, List.mem_eraseDups.mp hname, rfl⟩
  constructor
  case nodup_names => exact nodup_names_grouped asked ds
  case stored =>
    intro g hg
    obtain ⟨name, hname, rfl⟩ := hgroup hg
    exact ⟨find?_grouped_of_mem ds hname, hsolid name hname⟩
  case covered =>
    intro d hd
    rw [names_grouped]
    exact List.mem_eraseDups.mpr (hcovers d hd)
  case fragments =>
    intro g hg
    obtain ⟨name, -, rfl⟩ := hgroup hg
    simp only [Group.ofDeclarations, List.map_map, Kind.emit_source]
    rfl
  case accessors =>
    intro g hg
    obtain ⟨name, -, rfl⟩ := hgroup hg
    rfl
  case named =>
    intro g hg hempty
    obtain ⟨name, -, rfl⟩ := hgroup hg
    obtain ⟨d, hd, hname⟩ := List.mem_map.mp hempty
    exact hfree.named d (List.mem_of_mem_filter hd) hname
  case nodup_accessors =>
    intro g hg
    obtain ⟨name, -, rfl⟩ := hgroup hg
    exact hfree.nodup_accessors name
  case length_accessors =>
    intro g hg
    obtain ⟨name, -, rfl⟩ := hgroup hg
    simp [Group.ofDeclarations]
  case nodup_keys =>
    intro g hg
    obtain ⟨name, -, rfl⟩ := hgroup hg
    have hnodup := hfree.nodup_accessors name
    rw [← Function.comp_def accessorName, ← List.map_map] at hnodup
    exact hnodup.of_map
  case nodup_methods => exact hfree.nodup_methods
  case nodup_slots => exact hfree.nodup_slots

/-- A refused declaration leaves at most a group of its own name, and that one empty. -/
theorem route_of_refused {t : GroupTable} {d : Declaration} {e : PassError}
    (h : (t.route d).value.2 = some e) :
    (t.route d).value.1 = t ∨
      d.groupName ∉ t.names ∧ (t.route d).value.1 = ⟨t.groups ++ [.new d.groupName]⟩ := by
  have hensure : (t.route d).value.1 = (t.ensure d.group).value.2 := by
    rw [route_value] at h ⊢
    generalize (t.ensure d.group).value = ensured at h ⊢
    obtain ⟨group, after⟩ := ensured
    simp only at h ⊢
    split_ifs at h ⊢ <;> rfl
  rw [hensure]
  unfold ensure
  split
  case h_1 => exact .inl rfl
  case h_2 hfind =>
    exact .inr ⟨find?_eq_none_iff.mp hfind, rfl⟩

end GroupTable

namespace Session
variable {σ : Type}

/-- The declarations in the table after a request, from those in it before. A pass that is refused
empties the table. -/
def routedBy (s : Session) (world : σ) (before : List Declaration) : Request σ → List Declaration
  | .route d => if (s.route d).value.2 = none then before ++ [d] else before
  | .run source resources sink =>
    if s.completed then before
    else match (s.run source resources sink world).value.outcome with
      | .error (.refused _) => []
      | _ => (s.items source resources).filterMap Item.declaration?
  | _ => before

def routedAfter (s : Session) (world : σ) (before : List Declaration) :
    List (Request σ) → List Declaration
  | [] => before
  | request :: rest =>
    let (s', world') := (s.serve world request).value
    s'.routedAfter world' (s.routedBy world before request) rest

theorem route_value (s : Session) (d : Declaration) :
    (s.route d).value =
      ({ s with groups := (s.groups.route d).value.1 }, (s.groups.route d).value.2) := by
  simp only [route, Logged.bind_value, Logged.pure_value]

theorem comesFrom_serve {s : Session} {asked : List String} {before : List Declaration}
    (h : s.groups.ComesFrom asked before) (world : σ) (request : Request σ) :
    ∃ asked, (s.serve world request).value.1.groups.ComesFrom asked
      (s.routedBy world before request) := by
  cases request with
  | route d =>
    simp only [serve, routedBy, Logged.bind_value, Logged.pure_value, route_value]
    exact ⟨_, h.route d⟩
  | run source resources sink =>
    simp only [serve, routedBy, Logged.bind_value, Logged.pure_value]
    by_cases hs : s.completed = true
    · rw [run_completed source resources sink world hs, if_pos hs]
      exact ⟨asked, h⟩
    · have hidle := Bool.eq_false_iff.mpr hs
      rw [if_neg hs]
      rcases routing_cases source resources (s := s) with
        ⟨ds, hitems, hfree, hrouted⟩ | ⟨e, -, hrouted⟩
      · have hds := Item.filterMap_declaration? hitems
        rw [hds, run_of_routed source resources sink world hidle hrouted]
        generalize (sink.writeGroups _ _ world).value = written
        rcases written with ⟨cause | names, after⟩ <;>
          exact ⟨_, GroupTable.comesFrom_ofDeclarations hfree⟩
      · rw [(run_of_refused source resources sink world hidle hrouted).1]
        exact ⟨[], GroupTable.comesFrom_empty⟩
  | _ => exact ⟨asked, h⟩

theorem comesFrom_after {s : Session} {asked : List String} {before : List Declaration}
    (h : s.groups.ComesFrom asked before) (world : σ) (requests : List (Request σ)) :
    ∃ asked, (s.after world requests).1.groups.ComesFrom asked
      (s.routedAfter world before requests) := by
  induction requests generalizing s world asked before with
  | nil => exact ⟨asked, h⟩
  | cons request rest ih =>
    obtain ⟨asked', h'⟩ := comesFrom_serve h world request
    exact ih h' (s.serve world request).value.2

/-- After any history the groups are those of the declarations routed into the table, no two of
which meet, and a declaration that is refused adds at most an empty group. -/
theorem after_holds_routed (package configName : String) (world : σ)
    (requests : List (Request σ)) :
    let fresh := new package configName
    let s := (fresh.after world requests).1
    s.groups.Holds (fresh.routedAfter world [] requests) ∧
    ∀ d e, (s.route d).value.2 = some e →
      (s.route d).value.1 = s ∨
        d.groupName ∉ s.groups.names ∧
        (s.route d).value.1 = { s with groups := ⟨s.groups.groups ++ [.new d.groupName]⟩ } := by
  intro fresh s
  constructor
  · obtain ⟨asked, h⟩ := comesFrom_after (s := fresh) GroupTable.comesFrom_empty world requests
    exact h.holds
  · intro d e he
    rw [route_value] at he ⊢
    rcases GroupTable.route_of_refused he with hsame | ⟨hnew, hgroup⟩
    · left
      exact congrArg (fun groups => { s with groups }) hsame
    · right
      exact ⟨hnew, congrArg (fun groups => { s with groups }) hgroup⟩

def Sample.taken : Declaration := ⟨"G", "x3", .boolean true, none, by decide⟩

def Sample.clash : Declaration := ⟨"G", "x-3", .boolean true, none, by decide⟩

def Sample.nameless : Declaration := ⟨" ", "--", .boolean true, none, by decide⟩

def Sample.routes : List (Request MemorySink) :=
  [.run Sample.clashing none MemorySink.sink, .route Sample.taken, .route Sample.clash,
    .route Sample.nameless]

theorem sample_holds_taken :
    let s := ((new "com" "prefs").after Sample.sink Sample.routes).1
    s.groups.names = ["G", defaultGroupName] ∧ s.groups.Holds [Sample.taken] ∧
      (s.route Sample.clash).value.2 = some (.duplicate "x-3" none "X3" "G") ∧
      ((s.route Sample.clash).value.1 = s ∨
        Sample.clash.groupName ∉ s.groups.names ∧ (s.route Sample.clash).value.1 =
          { s with groups := ⟨s.groups.groups ++ [.new Sample.clash.groupName]⟩ }) := by
  intro s
  obtain ⟨hholds, hrefused⟩ := after_holds_routed "com" "prefs" Sample.sink Sample.routes
  have hrouted : (new "com" "prefs").routedAfter Sample.sink [] Sample.routes = [Sample.taken] := by
    decide +kernel
  have hnames : s.groups.names = ["G", defaultGroupName] := by decide +kernel
  have hclash : (s.route Sample.clash).value.2 = some (.duplicate "x-3" none "X3" "G") := by
    decide +kernel
  rw [hrouted] at hholds
  exact ⟨hnames, hholds, hclash, hrefused Sample.clash _ hclash⟩

end Session

end PreferenceAccessors
