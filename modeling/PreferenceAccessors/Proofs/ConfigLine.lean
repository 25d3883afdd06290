import PreferenceAccessors.Config
import PreferenceAccessors.Proofs.FloatRoundTrip
import PreferenceAccessors.Proofs.Location

/-!
What a line of the config declares. Its fields stand between its commas as they
are, nothing around them is dropped. A line is taken if it has four fields, a
key, one of the two kinds that can be given and a default of that kind; no other
line is, and nothing else of it is kept.
-/

namespace PreferenceAccessors

namespace Text

theorem length_pieces (separator : Char) (cs : List Char) :
    (pieces separator cs).length = cs.count separator + 1 := by
  induction cs with
  | nil => rfl
  | cons c rest ih =>
    rw [pieces]
    split_ifs with hc
    · rw [hc, List.count_cons_self, List.length_cons, ih]
    · rw [List.count_cons_of_ne hc, ← ih]
      cases hrest : pieces separator rest with
      | nil => exact absurd hrest (pieces_ne_nil separator rest)
      | cons piece others => rfl

theorem length_splitAt (separator : Char) (s : String) :
    (splitAt separator s).length = s.toList.count separator + 1 := by
  rw [splitAt, List.length_map, length_pieces]

theorem intercalate_splitAt (separator : Char) (s : String) :
    [separator].intercalate ((splitAt separator s).map String.toList) = s.toList := by
  have hback : (splitAt separator s).map String.toList = pieces separator s.toList := by
    simp [splitAt]
  rw [hback, intercalate_pieces]

end Text

theorem Checked.below_eq_ok {α : Type} {place : Place} {x : Checked α} {a : α} :
    below place x = .ok a ↔ x = .ok a := by
  cases x <;> simp [below]

theorem Declaration.checkLabel_eq_ok {key : String} {checked : { s : String // s ≠ "" }} :
    checkLabel ⟨key, false⟩ = .ok checked ↔ checked.1 = key := by
  obtain ⟨s, hs⟩ := checked
  unfold checkLabel
  simp only [Bool.false_eq_true, if_false]
  split_ifs with hkey
  · exact iff_of_false (by simp [Checked.refuse]) (fun h => hs (h.trans hkey))
  · simp [eq_comm]

theorem Declaration.make_eq_ok {kind : Kind} {group key : String} {value : Value}
    {source : Option SourceField} {d : Declaration} :
    make kind group ⟨key, false⟩ value source = .ok d ↔
      d.group = group ∧ d.key = key ∧ d.source = source ∧
        Default.check kind value = .ok d.default := by
  constructor
  · intro h
    simp only [make] at h
    split at h
    · next checked default hfields =>
      obtain ⟨hkey, hdefault⟩ := Checked.both_eq_ok.mp hfields
      have hkey := checkLabel_eq_ok.mp (Checked.below_eq_ok.mp hkey)
      obtain rfl := Except.ok.inj h
      exact ⟨rfl, hkey, rfl, Checked.below_eq_ok.mp hdefault⟩
    · simp at h
  · rintro ⟨rfl, rfl, rfl, hdefault⟩
    have hkey : checkLabel ⟨d.key, false⟩ = .ok ⟨d.key, d.key_ne⟩ := checkLabel_eq_ok.mpr rfl
    rw [make, hkey, hdefault]
    rfl

namespace Config

/-- A line with exactly three commas, and the fields between them. -/
structure HasFields (line group key text kind : String) : Prop where
  line_eq : line = group ++ "," ++ key ++ "," ++ text ++ "," ++ kind
  commas : line.toList.count ',' = 3

theorem splitAt_comma_append {s : String} (h : ',' ∉ s.toList) (rest : String) :
    Text.splitAt ',' (s ++ "," ++ rest) = s :: Text.splitAt ',' rest := by
  have hchars : (s ++ "," ++ rest).toList = s.toList ++ ',' :: rest.toList := by simp
  rw [Text.splitAt, hchars, Text.pieces_append, List.map_append]
  exact congrArg (· ++ Text.splitAt ',' rest) (Text.splitAt_of_not_mem h)

theorem splitAt_comma_iff {line group key text kind : String} :
    Text.splitAt ',' line = [group, key, text, kind] ↔ HasFields line group key text kind := by
  constructor
  · intro h
    have hlength := Text.length_splitAt ',' line
    have hline := Text.intercalate_splitAt ',' line
    rw [h] at hlength hline
    refine ⟨String.toList_inj.mp ?_, (Nat.succ.inj hlength).symm⟩
    simpa [List.intercalate] using hline.symm
  · rintro ⟨rfl, hcount⟩
    have hcomma : ",".toList.count ',' = 1 := rfl
    simp only [String.toList_append, List.count_append, hcomma] at hcount
    -- The three commas are the ones between the fields, so there are none within.
    have hnone : ∀ {s : String}, s.toList.count ',' = 0 → ',' ∉ s.toList :=
      fun h => List.count_eq_zero.mp h
    have hline : group ++ "," ++ key ++ "," ++ text ++ "," ++ kind =
        group ++ "," ++ (key ++ "," ++ (text ++ "," ++ kind)) := by
      simp only [String.append_assoc]
    rw [hline, splitAt_comma_append (hnone (by omega)), splitAt_comma_append (hnone (by omega)),
      splitAt_comma_append (hnone (by omega)), Text.splitAt_of_not_mem (hnone (by omega))]

theorem lower_eq_toLower (c : Char) : Numeral.lower c = c.toLower := by
  rw [Numeral.lower]
  delta Char.toLower
  split_ifs with hupper hval hval
  · have hlow : 65 ≤ c.toNat := UInt32.le_iff_toNat_le.mp hupper.1
    have hhigh : c.toNat ≤ 90 := UInt32.le_iff_toNat_le.mp hupper.2
    apply Char.ext
    apply UInt32.toNat_inj.mp
    rw [Char.ofNat, dif_pos (.inl (by omega))]
    change c.toNat + 32 = (c.toNat + 32) % 2 ^ 32
    omega
  · exact absurd hupper hval
  · exact absurd hval hupper
  · rfl

theorem readBoolean_eq (s : String) : readBoolean s = decide (s.toLower = "true") := by
  have hlower : s.toLower.toList = s.toList.map Numeral.lower := by
    refine String.toList_map.trans ?_
    exact List.map_congr_left fun c _ => (lower_eq_toLower c).symm
  rw [readBoolean, ← hlower, Bool.eq_iff_iff, beq_iff_eq, decide_eq_true_iff, ← String.toList_inj]
  rfl

/-- The default that a text gives to a kind, by the name of the kind. -/
inductive GivesDefault : String → String → Default → Prop
  | boolean (text : String) : GivesDefault "boolean" text (.boolean (text.toLower = "true"))
  | float {text : String} {x : Binary} (h : readFloat text = .ok x) :
      GivesDefault "float" text (.float x)

theorem readFloat_narrow {s : String} {x : Binary} (h : readFloat s = .ok x) : x.narrow = x := by
  unfold readFloat at h
  split at h
  · rw [← Except.ok.inj h, Binary.narrow_narrow]
  · simp at h

theorem givesDefault_iff {name text : String} {default : Default} :
    GivesDefault name text default ↔
      ∃ kind value, readDefault? name text = some (kind, value) ∧
        Default.check kind value = .ok default := by
  constructor
  · intro h
    cases h with
    | boolean =>
      refine ⟨.boolean, .bool (readBoolean text), if_pos rfl, ?_⟩
      rw [← readBoolean_eq]
      rfl
    | @float _ x hx =>
      have hname : "float" = Kind.float.name := rfl
      refine ⟨.float, .float x, ?_, ?_⟩
      · rw [readDefault?, if_neg (by decide), if_pos hname, hx]
      · rw [Default.check, readFloat_narrow hx]
  · rintro ⟨kind, value, hread, hcheck⟩
    unfold readDefault? at hread
    split_ifs at hread with hboolean hfloat
    · cases hread
      cases hcheck
      rw [hboolean, readBoolean_eq]
      exact .boolean text
    · split at hread
      · next x hx =>
        cases hread
        rw [Default.check, readFloat_narrow hx] at hcheck
        cases hcheck
        rw [hfloat]
        exact .float hx
      · simp at hread

theorem GivesDefault.kind_name {name text : String} {default : Default}
    (h : GivesDefault name text default) : default.kind.name = name := by
  cases h with
  | boolean => rfl
  | float => rfl

theorem exists_givesDefault_iff {name text : String} :
    (∃ default, GivesDefault name text default) ↔
      name = "boolean" ∨ name = "float" ∧ ∃ x, readFloat text = .ok x := by
  constructor
  · rintro ⟨default, h⟩
    cases h with
    | boolean => exact .inl rfl
    | float hx => exact .inr ⟨rfl, _, hx⟩
  · rintro (rfl | ⟨rfl, x, hx⟩)
    · exact ⟨_, .boolean text⟩
    · exact ⟨_, .float hx⟩

theorem readLine?_eq_some_iff {line : String} {d : Declaration} :
    readLine? line = some d ↔
      ∃ text kind, HasFields line d.group d.key text kind ∧ d.source = none ∧
        GivesDefault kind text d.default := by
  constructor
  · intro h
    unfold readLine? at h
    split at h
    · next group key text name hsplit =>
      obtain ⟨made, hread, h⟩ := Option.bind_eq_some_iff.mp h
      have hmade : Declaration.make made.1 group ⟨key, false⟩ made.2 none = .ok d := by
        cases hcase : Declaration.make made.1 group ⟨key, false⟩ made.2 none <;>
          simp_all [Except.toOption]
      obtain ⟨rfl, rfl, hsource, hcheck⟩ := Declaration.make_eq_ok.mp hmade
      exact ⟨text, name, splitAt_comma_iff.mp hsplit, hsource,
        givesDefault_iff.mpr ⟨made.1, made.2, hread, hcheck⟩⟩
    · simp at h
  · rintro ⟨text, name, hfields, hsource, hdefault⟩
    obtain ⟨kind, value, hread, hcheck⟩ := givesDefault_iff.mp hdefault
    have hmade := Declaration.make_eq_ok.mpr ⟨rfl, rfl, hsource, hcheck⟩
    rw [readLine?, splitAt_comma_iff.mpr hfields]
    simp only [hread, Option.bind_eq_bind, Option.bind_some, hmade, Except.toOption]

/-- A line declares just what its four fields say, and every other line is skipped. -/
theorem readLine?_declares (line : String) :
    (∀ d, readLine? line = some d ↔
        ∃ text kind, HasFields line d.group d.key text kind ∧ d.kind.name = kind ∧
          d.source = none ∧ GivesDefault kind text d.default) ∧
      (readLine? line = none ↔
        ¬ ∃ group key text kind, HasFields line group key text kind ∧ key ≠ "" ∧
          (kind = "boolean" ∨ kind = "float" ∧ ∃ x, readFloat text = .ok x)) := by
  constructor
  · intro d
    rw [readLine?_eq_some_iff]
    refine exists_congr fun text => exists_congr fun kind => and_congr_right fun _ => ?_
    exact (and_iff_right_of_imp fun h => h.2.kind_name).symm
  · rw [Option.eq_none_iff_forall_ne_some, ← not_exists, not_iff_not]
    simp only [readLine?_eq_some_iff, ← exists_givesDefault_iff]
    constructor
    · rintro ⟨d, text, kind, hfields, -, hdefault⟩
      exact ⟨d.group, d.key, text, kind, hfields, d.key_ne, d.default, hdefault⟩
    · rintro ⟨group, key, text, kind, hfields, hkey, default, hdefault⟩
      exact ⟨⟨group, key, default, none, hkey⟩, text, kind, hfields, rfl, hdefault⟩

example : readLine? " a ,k\t,tRUE,boolean" = some ⟨" a ", "k\t", .boolean true, none, by decide⟩ := by
  decide +kernel

end Config

end PreferenceAccessors
