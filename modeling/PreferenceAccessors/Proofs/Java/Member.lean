import PreferenceAccessors.Proofs.AccessorName
import PreferenceAccessors.Proofs.Java.GeneratedCode
import PreferenceAccessors.Proofs.Routed

/-!
The members of a generated class. A fragment is a comment line and two methods;
a class declares those of the declarations routed into its group, and what it
does not declare it has from `Object`. Signatures within a class never meet, and
with those of `Object` there is one meeting: a key with the accessor `Class`
makes a static `getClass()`, which is final there. Such a key is not refused.
-/

namespace PreferenceAccessors

namespace Java

/-- What tells the methods of a class apart: a name, and the types of the parameters. -/
structure Signature where
  name : String
  parameters : List String
deriving DecidableEq

structure Method where
  result : String
  name : String
  parameters : List (String × String)
  statement : String

def Method.signature (m : Method) : Signature :=
  ⟨m.name, m.parameters.map Prod.fst⟩

def Method.text (m : Method) : String :=
  "  public static " ++ m.result ++ " " ++ m.name ++ "(" ++
    ", ".intercalate (m.parameters.map fun p => p.1 ++ " " ++ p.2) ++ ") \x7b\n" ++
  "    " ++ m.statement ++ ";\n" ++
  "  \x7d"

def getClass : Signature := ⟨"getClass", []⟩

/-- The methods that a class has from `Object`, public and protected ones. -/
def objectMethods : List Signature :=
  [⟨"clone", []⟩, ⟨"equals", ["Object"]⟩, ⟨"finalize", []⟩, getClass, ⟨"hashCode", []⟩,
    ⟨"notify", []⟩, ⟨"notifyAll", []⟩, ⟨"toString", []⟩, ⟨"wait", []⟩, ⟨"wait", ["long"]⟩,
    ⟨"wait", ["long", "int"]⟩]

/-- Beside these declarations a class may declare this signature too. -/
def IsFree (declared : List Signature) (m : Signature) : Prop :=
  m ∉ declared ∧ m ∉ objectMethods

end Java

namespace Accessor

def getMethod (a : Accessor) : Java.Method :=
  ⟨a.kind.javaType, "get" ++ accessorName a.key, [],
    "return sPreferences.get" ++ a.kind.storeMethod ++ "(" ++ JavaString.literal a.key ++ ", " ++
      a.literal ++ ")"⟩

def setMethod (a : Accessor) : Java.Method :=
  ⟨"void", "set" ++ accessorName a.key, [(a.kind.javaType, "value")],
    "sPreferences.edit().put" ++ a.kind.storeMethod ++ "(" ++ JavaString.literal a.key ++
      ", value).apply()"⟩

theorem getter_eq (a : Accessor) : a.getter = a.getMethod.text := by
  have hname : " get" = " " ++ "get" := by decide
  have hopen : "() \x7b\n" = "(" ++ ") \x7b\n" := by decide
  have hreturn : "    return sPreferences.get" = "    " ++ "return sPreferences.get" := by decide
  have hclose : ");\n" = ")" ++ ";\n" := by decide
  unfold getter getMethod Java.Method.text
  rw [hname, hopen, hreturn, hclose]
  simp only [List.map_nil, String.intercalate_nil, String.append_assoc, String.empty_append]

theorem setter_eq (a : Accessor) : a.setter = a.setMethod.text := by
  have hname : "  public static void set" = "  public static " ++ "void" ++ " " ++ "set" := by
    decide
  have hopen : " value) \x7b\n" = " " ++ "value" ++ ") \x7b\n" := by decide
  have hedit : "    sPreferences.edit().put" = "    " ++ "sPreferences.edit().put" := by decide
  have hclose : ", value).apply();\n" = ", value).apply()" ++ ";\n" := by decide
  unfold setter setMethod Java.Method.text
  rw [hname, hopen, hedit, hclose]
  simp only [List.map_cons, List.map_nil, String.intercalate_singleton, String.append_assoc]

end Accessor

theorem toUpper_eq_C_iff {c : Char} : c.toUpper = 'C' ↔ c = 'c' ∨ c = 'C' := by
  constructor
  · intro h
    by_cases hlower : c.isLower
    · left
      have hle : c.toNat ≤ 122 := of_decide_eq_true (Bool.and_eq_true_iff.mp hlower).2
      have hvalid : (c.toNat - 32).isValidChar := .inl (by omega)
      have hcode : c.toNat - 32 = 67 := by
        rw [Char.toUpper_eq_of_isLower hlower] at h
        have hcodes := congrArg Char.toNat h
        rwa [Char.toNat_ofNat, if_pos hvalid] at hcodes
      have hc : c.toNat = 99 := by omega
      exact Char.toNat_inj.mp hc
    · right
      rwa [Char.toUpper_eq_of_not_isLower hlower] at h
  · rintro (rfl | rfl) <;> decide

theorem accessorName_eq_class_iff {key : String} :
    accessorName key = "Class" ↔ ∃ before c after,
      key.toList = before ++ c :: (['l', 'a', 's', 's'] ++ after) ∧ (c = 'c' ∨ c = 'C') ∧
      (∀ d ∈ before, d.isAlphanum = false) ∧ ∀ d ∈ after, d.isAlphanum = false := by
  have hlower : ∀ d ∈ ['l', 'a', 's', 's'], d.isAlphanum ∧ d.toUpper ≠ d := by
    intro d hd
    simp only [List.mem_cons, List.not_mem_nil, or_false] at hd
    rcases hd with rfl | rfl | rfl | rfl <;> decide
  have halnum : ∀ {c : Char}, c = 'c' ∨ c = 'C' → c.isAlphanum := by
    rintro c (rfl | rfl) <;> decide
  rw [← String.toList_inj, toList_accessorName]
  change AccessorName.onePass none key.toList = 'C' :: ['l', 'a', 's', 's'] ↔ _
  rw [AccessorName.onePass_eq_cons_iff hlower]
  simp only [toUpper_eq_C_iff]
  refine exists_congr fun before => exists_congr fun c => exists_congr fun after => ?_
  refine and_congr_right fun _ => ⟨fun h => h.2, fun h => ⟨halnum h.1, h⟩⟩

namespace Declaration
variable {d : Declaration} {m : Java.Signature}

def javaMethods (d : Declaration) : List Java.Method :=
  [d.uncommented.getMethod, d.uncommented.setMethod]

def signatures (d : Declaration) : List Java.Signature :=
  d.javaMethods.map Java.Method.signature

theorem fragment_eq_methods (d : Declaration) :
    d.fragment = d.commentLine ++ "\n\n".intercalate (d.javaMethods.map Java.Method.text) := by
  have hcomment : d.uncommented.comment = "" := rfl
  rw [fragment_eq, Accessor.text, hcomment, Accessor.getter_eq, Accessor.setter_eq]
  simp only [javaMethods, List.map_cons, List.map_nil, String.intercalate_cons_cons,
    String.intercalate_singleton, String.empty_append, String.append_assoc]

theorem signatures_eq (d : Declaration) :
    d.signatures =
      [⟨"get" ++ accessorName d.key, []⟩, ⟨"set" ++ accessorName d.key, [d.kind.javaType]⟩] :=
  rfl

theorem mem_signatures :
    m ∈ d.signatures ↔ m = ⟨"get" ++ accessorName d.key, []⟩ ∨
      m = ⟨"set" ++ accessorName d.key, [d.kind.javaType]⟩ := by
  rw [signatures_eq, List.mem_pair]

theorem getClass_mem_signatures :
    Java.getClass ∈ d.signatures ↔ accessorName d.key = "Class" := by
  have hname : "getClass" = "get" ++ "Class" := by decide
  rw [mem_signatures, Java.getClass, hname, Java.Signature.mk.injEq, String.append_right_inj]
  constructor
  · rintro (⟨h, -⟩ | h)
    · exact h.symm
    · exact absurd (congrArg Java.Signature.parameters h) (List.cons_ne_nil _ _).symm
  · intro h
    exact .inl ⟨h.symm, rfl⟩

theorem mem_objectMethods_iff (h : m ∈ d.signatures) :
    m ∈ Java.objectMethods ↔ m = Java.getClass := by
  have hget : ∀ m ∈ Java.objectMethods, "get".toList <+: m.name.toList → m = Java.getClass := by
    decide
  have hset : ∀ m ∈ Java.objectMethods, ¬ "set".toList <+: m.name.toList := by decide
  constructor
  · intro hmem
    rcases mem_signatures.mp h with rfl | rfl
    · refine hget _ hmem ?_
      rw [String.toList_append]
      exact List.prefix_append _ _
    · refine absurd ?_ (hset _ hmem)
      rw [String.toList_append]
      exact List.prefix_append _ _
  · rintro rfl
    decide

theorem forall_isFree_iff {declared : List Java.Signature}
    (h : ∀ m ∈ d.signatures, m ∉ declared) :
    (∀ m ∈ d.signatures, Java.IsFree declared m) ↔ accessorName d.key ≠ "Class" := by
  rw [ne_eq, ← getClass_mem_signatures]
  constructor
  · intro hall hmem
    exact (hall _ hmem).2 (by decide)
  · intro hnot m hm
    refine ⟨h m hm, fun hobject => hnot ?_⟩
    rwa [← (mem_objectMethods_iff hm).mp hobject]

end Declaration

theorem Faultless.nodup_signatures {ds : List Declaration} (h : Faultless ds) (name : String) :
    ((membersOf ds name).flatMap Declaration.signatures).Nodup := by
  have hmethods := (h.members name).nodup_methods
  have hpairs : (membersOf ds name).flatMap Declaration.methods =
      ((membersOf ds name).flatMap Declaration.signatures).map
        fun m => (name, m.name) := by
    rw [List.map_flatMap]
    refine List.flatMap_congr fun d hd => ?_
    rw [Declaration.methods, groupName_of_mem_membersOf hd]
    rfl
  rw [hpairs] at hmethods
  exact hmethods.of_map

namespace Session
variable {σ : Type}

theorem find?_route_of_accepted {s : Session} {asked : List String} {ds : List Declaration}
    (h : s.groups.ComesFrom asked ds) {d : Declaration} (hd : (s.route d).value.2 = none) :
    (s.route d).value.1.groups.find? d.groupName =
        some (.ofDeclarations d.groupName (membersOf ds d.groupName ++ [d])) ∧
      Faultless (ds ++ [d]) := by
  rw [route_value] at hd ⊢
  have hafter := h.route d
  rw [if_pos hd] at hafter
  have hasked : d.groupName ∈ asked ++ [d.groupName] := List.mem_append_right _ List.mem_cons_self
  refine ⟨?_, hafter.faultless⟩
  rw [← membersOf_append_self, hafter.eq_grouped]
  exact GroupTable.find?_grouped_of_mem _ hasked

/-- Whatever came before, the methods of an accepted declaration join those of its class at the
end, and no two of a class have one signature. With `Object` they share none but `getClass()`, and
that exactly when the key is the word `class` among separators, its first letter in either case. -/
theorem route_signatures_isFree_iff (package configName : String) (world : σ)
    (requests : List (Request σ)) (d : Declaration) :
    let fresh := new package configName
    let s := (fresh.after world requests).1
    let earlier := membersOf (fresh.routedAfter world [] requests) d.groupName
    (s.route d).value.2 = none →
      (∃ g, (s.route d).value.1.groups.find? d.groupName = some g ∧
        g.fragments = (earlier ++ [d]).map fun e =>
          e.commentLine ++ "\n\n".intercalate (e.javaMethods.map Java.Method.text)) ∧
      d.signatures =
        [⟨"get" ++ accessorName d.key, []⟩, ⟨"set" ++ accessorName d.key, [d.kind.javaType]⟩] ∧
      ((earlier ++ [d]).flatMap Declaration.signatures).Nodup ∧
      (∀ m ∈ d.signatures, m ∈ Java.objectMethods ↔ m = Java.getClass) ∧
      ((∀ m ∈ d.signatures, Java.IsFree (earlier.flatMap Declaration.signatures) m) ↔
        accessorName d.key ≠ "Class") ∧
      (accessorName d.key = "Class" ↔ ∃ before c after,
        d.key.toList = before ++ c :: (['l', 'a', 's', 's'] ++ after) ∧ (c = 'c' ∨ c = 'C') ∧
        (∀ x ∈ before, x.isAlphanum = false) ∧ ∀ x ∈ after, x.isAlphanum = false) := by
  intro fresh s earlier haccepted
  obtain ⟨asked, hcomes⟩ :=
    comesFrom_after (s := fresh) GroupTable.comesFrom_empty world requests
  obtain ⟨hfound, hfree⟩ := find?_route_of_accepted hcomes haccepted
  have hnodup : ((earlier ++ [d]).flatMap Declaration.signatures).Nodup := by
    rw [← membersOf_append_self]
    exact hfree.nodup_signatures d.groupName
  have hnew : ∀ m ∈ d.signatures, m ∉ earlier.flatMap Declaration.signatures := by
    intro m hm hearlier
    rw [List.flatMap_append, List.flatMap_singleton] at hnodup
    exact (List.nodup_append.mp hnodup).2.2 m hearlier m hm rfl
  refine ⟨⟨_, hfound, ?_⟩, d.signatures_eq, hnodup,
    fun m hm => Declaration.mem_objectMethods_iff hm, Declaration.forall_isFree_iff hnew,
    accessorName_eq_class_iff⟩
  exact List.map_congr_left fun e _ => e.fragment_eq_methods

def Sample.longer : Declaration := ⟨"G", "class_3", .boolean true, none, by decide⟩

theorem sample_longer_isFree :
    let s := ((new "com" "prefs").after Sample.sink Sample.routes).1
    (s.route Sample.longer).value.2 = none ∧
      ∀ m ∈ Sample.longer.signatures, Java.IsFree Sample.taken.signatures m := by
  intro s
  have haccepted : (s.route Sample.longer).value.2 = none := by decide +kernel
  have hearlier : membersOf ((new "com" "prefs").routedAfter Sample.sink [] Sample.routes)
      Sample.longer.groupName = [Sample.taken] := by decide +kernel
  obtain ⟨-, -, -, -, hfree, -⟩ :=
    route_signatures_isFree_iff "com" "prefs" Sample.sink Sample.routes Sample.longer haccepted
  rw [hearlier, List.flatMap_singleton] at hfree
  exact ⟨haccepted, hfree.mpr (by decide)⟩

def Sample.word : Declaration := ⟨"G", "class", .boolean true, none, by decide⟩

theorem route_word_not_isFree :
    ((new "com" "prefs").route Sample.word).value.2 = none ∧
      Java.getClass ∈ Sample.word.signatures ∧ ¬ Java.IsFree [] Java.getClass := by
  have haccepted : ((new "com" "prefs").route Sample.word).value.2 = none := by decide +kernel
  have hobject : Java.getClass ∈ Java.objectMethods := by decide
  exact ⟨haccepted, by decide, fun hfree => hfree.2 hobject⟩

end Session

end PreferenceAccessors
