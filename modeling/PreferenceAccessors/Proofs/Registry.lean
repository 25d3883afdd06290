import PreferenceAccessors.Proofs.Entries
import PreferenceAccessors.Registry

/-!
Which registries there are. Of several entries for a name the last one counts,
at the place of the first. A registry stands exactly when every kind has a
handler and every name has that of its own kind, so it is the standard one
whatever the order of the entries. Else the kinds without a handler are named,
all of them and in their order, and only when there are none the first name with
a handler of another kind.
-/

namespace PreferenceAccessors

theorem Kind.name_injective : Function.Injective Kind.name := by
  intro k l h
  have hsome : some k = some l := by rw [← ofName?_name, h, ofName?_name]
  exact Option.some.inj hsome

namespace Registry

section Mapping
variable (entries : List (String × Kind))

def lastHandler? (name : String) : Option Kind :=
  entries.reverse.lookup name

def namesOf : List String :=
  (entries.map Prod.fst).eraseDups

def missingKinds : List Kind :=
  Kind.all.filter fun k => k.name ∉ entries.map Prod.fst

def IsComplete : Prop :=
  ∀ k : Kind, k.name ∈ entries.map Prod.fst

def Matches : Prop :=
  ∀ name handler, lastHandler? entries name = some handler → name = handler.name

/-- In order of first occurrence this is the first name with a handler of another kind. -/
structure FirstMismatch (name : String) (handler : Kind) : Prop where
  last : lastHandler? entries name = some handler
  differs : name ≠ handler.name
  first : ∃ before after, namesOf entries = before ++ name :: after ∧
    ∀ other ∈ before, ∀ k, lastHandler? entries other = some k → other = k.name

theorem mapping_concat (entry : String × Kind) :
    mapping (entries ++ [entry]) = Entries.put (mapping entries) entry := by
  rw [mapping, List.foldl_append]
  rfl

theorem names_mapping : (mapping entries).map Prod.fst = namesOf entries := by
  induction entries using List.reverseRecOn with
  | nil => rfl
  | append_singleton entries entry ih =>
    rw [mapping_concat, Entries.names_put, ih, namesOf, namesOf, List.map_append,
      List.map_singleton, eraseDups_concat]
    simp only [List.mem_eraseDups]

theorem lookup_mapping (name : String) :
    (mapping entries).lookup name = lastHandler? entries name := by
  induction entries using List.reverseRecOn with
  | nil => rfl
  | append_singleton entries entry ih =>
    obtain ⟨key, handler⟩ := entry
    rw [mapping_concat, Entries.lookup_put, ih, lastHandler?, lastHandler?, List.reverse_concat,
      List.lookup_cons]
    by_cases h : name = key <;> simp [h, beq_false_of_ne]

theorem nodup_mapping : ((mapping entries).map Prod.fst).Nodup := by
  rw [names_mapping]
  exact nodup_eraseDups _

variable {entries}

theorem mem_mapping {name : String} {handler : Kind} :
    (name, handler) ∈ mapping entries ↔ lastHandler? entries name = some handler := by
  rw [← lookup_mapping]
  exact ⟨Entries.lookup_eq_some_of_mem (nodup_mapping entries), Entries.mem_of_lookup_eq_some⟩

theorem missingKinds_eq_nil : missingKinds entries = [] ↔ IsComplete entries := by
  simp only [missingKinds, List.filter_eq_nil_iff, decide_eq_true_eq, not_not, IsComplete]
  exact ⟨fun h k => h k k.mem_all, fun h k _ => h k⟩

theorem find?_mismatch_eq_none :
    (mapping entries).find? (fun e => e.1 != e.2.name) = none ↔ Matches entries := by
  simp only [List.find?_eq_none, bne_iff_ne, ne_eq, not_not, Prod.forall, mem_mapping, Matches]

theorem find?_mismatch_eq_some {name : String} {handler : Kind} :
    (mapping entries).find? (fun e => e.1 != e.2.name) = some (name, handler) ↔
      FirstMismatch entries name handler := by
  rw [List.find?_eq_some_iff_append]
  simp only [bne_iff_ne, Bool.not_eq_eq_eq_not, Bool.not_true, bne_eq_false_iff_eq]
  constructor
  · rintro ⟨hdiffers, before, after, hcut, hbefore⟩
    have hmem : ∀ e ∈ before, ∀ k, lastHandler? entries e.1 = some k → e.1 = k.name := by
      intro e he k hk
      have hown : e ∈ mapping entries := hcut ▸ List.mem_append_left _ he
      obtain rfl : e.2 = k := Option.some.inj ((mem_mapping.mp hown).symm.trans hk)
      exact hbefore e he
    refine ⟨mem_mapping.mp (hcut ▸ List.mem_append_right _ List.mem_cons_self), hdiffers,
      before.map Prod.fst, after.map Prod.fst, ?_, List.forall_mem_map.mpr hmem⟩
    rw [← names_mapping, hcut, List.map_append, List.map_cons]
  · rintro ⟨hlast, hdiffers, before, after, hnames, hbefore⟩
    rw [← names_mapping] at hnames
    obtain ⟨front, back, hcut, rfl, hback⟩ := List.map_eq_append_iff.mp hnames
    obtain ⟨e, rest, rfl, rfl, -⟩ := List.map_eq_cons_iff.mp hback
    have hown : ∀ x ∈ front ++ e :: rest, lastHandler? entries x.1 = some x.2 :=
      fun x hx => mem_mapping.mp (hcut ▸ hx)
    have he := hown e (List.mem_append_right _ List.mem_cons_self)
    obtain rfl : e.2 = handler := Option.some.inj (he.symm.trans hlast)
    exact ⟨hdiffers, front, rest, hcut, fun x hx =>
      hbefore x.1 (List.mem_map_of_mem hx) x.2 (hown x (List.mem_append_left _ hx))⟩

theorem missingKinds_eq (entries : List (String × Kind)) :
    Kind.all.filter (fun k => !(mapping entries).any (·.1 == k.name)) = missingKinds entries := by
  refine List.filter_congr fun k _ => ?_
  rw [Bool.eq_iff_iff, Bool.not_eq_true', ← Bool.not_eq_true, Entries.any_key_iff, names_mapping,
    namesOf, List.mem_eraseDups, decide_eq_true_iff]

section Build

theorem build_of_missing (h : ¬ IsComplete entries) :
    build entries = .error (.missing (missingKinds entries)) := by
  rw [build, missingKinds_eq]
  exact if_pos (mt missingKinds_eq_nil.mp h)

theorem build_of_complete (h : IsComplete entries) :
    build entries = match (mapping entries).find? fun e => e.1 != e.2.name with
      | some (name, handler) => .error (.mismatched name handler)
      | none => .ok ⟨Kind.all.filterMap fun k =>
          ((mapping entries).find? (·.1 == k.name)).map fun e => (k, e.2)⟩ := by
  rw [build, missingKinds_eq]
  exact if_neg (not_not.mpr (missingKinds_eq_nil.mpr h))

theorem build_of_mismatch (h : IsComplete entries) {name : String} {handler : Kind}
    (hfirst : FirstMismatch entries name handler) :
    build entries = .error (.mismatched name handler) := by
  rw [build_of_complete h, find?_mismatch_eq_some.mpr hfirst]

theorem find?_of_matches (h : IsComplete entries) (hmatches : Matches entries) (k : Kind) :
    ((mapping entries).find? (·.1 == k.name)).map (fun e => (k, e.2)) = some (k, k) := by
  have hfound : ((mapping entries).find? (·.1 == k.name)).map Prod.snd = some k := by
    have hmem : k.name ∈ (mapping entries).map Prod.fst := by
      rw [names_mapping, namesOf, List.mem_eraseDups]
      exact h k
    obtain ⟨handler, hhandler⟩ := Option.ne_none_iff_exists'.mp
      (mt Entries.lookup_eq_none_iff_not_mem.mp (not_not.mpr hmem))
    rw [lookup_mapping] at hhandler
    obtain rfl : k = handler := Kind.name_injective (hmatches k.name handler hhandler)
    rw [Entries.find?_eq_lookup, lookup_mapping, hhandler]
  obtain ⟨e, he, hk⟩ := Option.map_eq_some_iff.mp hfound
  rw [he, Option.map_some, hk]

theorem build_of_matches (h : IsComplete entries) (hmatches : Matches entries) :
    build entries = .ok standard := by
  rw [build_of_complete h, find?_mismatch_eq_none.mpr hmatches]
  simp only [find?_of_matches h hmatches]
  rfl

theorem build_cases (entries : List (String × Kind)) :
    (¬ IsComplete entries ∧ build entries = .error (.missing (missingKinds entries))) ∨
    (IsComplete entries ∧ ∃ name handler, FirstMismatch entries name handler ∧
      build entries = .error (.mismatched name handler)) ∨
    (IsComplete entries ∧ Matches entries ∧ build entries = .ok standard) := by
  by_cases h : IsComplete entries
  · cases hfind : (mapping entries).find? fun e => e.1 != e.2.name with
    | none =>
      have hmatches := find?_mismatch_eq_none.mp hfind
      exact .inr (.inr ⟨h, hmatches, build_of_matches h hmatches⟩)
    | some e =>
      have hfirst := find?_mismatch_eq_some.mp hfind
      exact .inr (.inl ⟨h, e.1, e.2, hfirst, build_of_mismatch h hfirst⟩)
  · exact .inl ⟨h, build_of_missing h⟩

theorem build_eq_ok {r : Registry} :
    build entries = .ok r ↔ IsComplete entries ∧ Matches entries ∧ r = standard := by
  constructor
  · intro hr
    rcases build_cases entries with ⟨-, hbuild⟩ | ⟨-, _, _, -, hbuild⟩ | ⟨h, hmatches, hbuild⟩
    · simp [hbuild] at hr
    · simp [hbuild] at hr
    · exact ⟨h, hmatches, Except.ok.inj (hr.symm.trans hbuild)⟩
  · rintro ⟨h, hmatches, rfl⟩
    exact build_of_matches h hmatches

end Build

theorem Matches.mem_names (h : Matches entries) {name : String}
    (hname : name ∈ entries.map Prod.fst) : name ∈ Kind.all.map Kind.name := by
  have hmem : name ∈ entries.reverse.map Prod.fst := by
    rw [List.map_reverse]
    exact List.mem_reverse.mpr hname
  obtain ⟨handler, hhandler⟩ := Option.ne_none_iff_exists'.mp
    (mt Entries.lookup_eq_none_iff_not_mem.mp (not_not.mpr hmem))
  rw [h name handler hhandler]
  exact List.mem_map_of_mem handler.mem_all

end Mapping

theorem get?_standard (name : String) : standard.get? name = Kind.ofName? name := by
  rw [get?, standard, List.find?_map, Option.map_map]
  exact Option.map_id_apply

/-- A registry stands exactly when every kind has a handler and every name that of its own kind, and
then it is the standard one, in the order of the kinds. Otherwise the error names all kinds without
a handler, in their order, or when there are none the first name with a handler of another kind. -/
theorem build_stands_iff (entries : List (String × Kind)) :
    (∀ r, build entries = .ok r ↔ IsComplete entries ∧ Matches entries ∧ r = standard) ∧
    (∀ name ∈ entries.map Prod.fst, name ∉ Kind.all.map Kind.name →
      ∀ r, build entries ≠ .ok r) ∧
    (∀ e, build entries = .error e ↔
      (¬ IsComplete entries ∧ e = .missing (missingKinds entries) ∧
        e.message = "No strategy registered for: " ++
          ", ".intercalate ((missingKinds entries).map Kind.name)) ∨
      (IsComplete entries ∧ ∃ name handler, FirstMismatch entries name handler ∧
        e = .mismatched name handler ∧
        e.message = "Strategy " ++ handler.handlerName ++ " registered for '" ++ name ++
          "' handles '" ++ handler.name ++ "'")) ∧
    standard.kinds = Kind.all ∧ standard.handlers = Kind.all ∧
    ∀ name, standard.get? name = Kind.ofName? name := by
  refine ⟨fun r => build_eq_ok, ?_, fun e => ?_, rfl, rfl, get?_standard⟩
  · intro name hname hforeign r hr
    exact hforeign ((build_eq_ok.mp hr).2.1.mem_names hname)
  · constructor
    · intro he
      rcases build_cases entries with ⟨h, hbuild⟩ | ⟨h, name, handler, hfirst, hbuild⟩ |
        ⟨-, -, hbuild⟩
      · obtain rfl : e = .missing (missingKinds entries) :=
          Except.error.inj (he.symm.trans hbuild)
        exact .inl ⟨h, rfl, rfl⟩
      · obtain rfl : e = .mismatched name handler := Except.error.inj (he.symm.trans hbuild)
        exact .inr ⟨h, name, handler, hfirst, rfl, rfl⟩
      · simp [hbuild] at he
    · rintro (⟨h, rfl, -⟩ | ⟨h, name, handler, hfirst, rfl, -⟩)
      · exact build_of_missing h
      · exact build_of_mismatch h hfirst

def Sample.shuffled : List (String × Kind) :=
  [("string", .string), ("float", .int), ("boolean", .boolean), ("long", .long), ("int", .int),
    ("float", .float)]

def Sample.foreign : List (String × Kind) :=
  Sample.shuffled ++ [("double", .float), ("int", .long)]

theorem sample_stands :
    build Sample.shuffled = .ok standard ∧
    "double" ∈ Sample.foreign.map Prod.fst ∧ "double" ∉ Kind.all.map Kind.name ∧
    (∀ r, build Sample.foreign ≠ .ok r) ∧
    build Sample.foreign = .error (.mismatched "int" .long) := by
  have hcomplete : ∀ entries, missingKinds entries = [] → IsComplete entries :=
    fun _ => missingKinds_eq_nil.mp
  have hmatches : Matches Sample.shuffled := find?_mismatch_eq_none.mp (by decide)
  have hfirst : FirstMismatch Sample.foreign "int" .long := find?_mismatch_eq_some.mp (by decide)
  obtain ⟨hstands, -, -, -⟩ := build_stands_iff Sample.shuffled
  obtain ⟨-, hforeign, herror, -⟩ := build_stands_iff Sample.foreign
  refine ⟨(hstands standard).mpr ⟨hcomplete _ (by decide), hmatches, rfl⟩, by decide, by decide,
    hforeign "double" (by decide) (by decide), (herror _).mpr (.inr ?_)⟩
  exact ⟨hcomplete _ (by decide), "int", .long, hfirst, rfl, rfl⟩

end Registry

end PreferenceAccessors
