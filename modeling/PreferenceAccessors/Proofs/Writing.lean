import Mathlib.Tactic
import PreferenceAccessors.Sink

/-!
Generated files. The text of a group is a list of closed blocks: the package
line and a blank one when there is a package, the two lines of the class header,
a blank line before each fragment, and the closing brace.

A sink answers each file put into it. Writing a table puts every file once, in
the order of the table, unless one is no matter for a file system at all.
-/

namespace PreferenceAccessors

def closeBlocks (blocks : List String) : String :=
  String.join (blocks.map (· ++ "\n"))

theorem closeBlocks_append (xs ys : List String) :
    closeBlocks (xs ++ ys) = closeBlocks xs ++ closeBlocks ys := by
  simp [closeBlocks]

namespace Group

def headerLines (name : String) : List String :=
  ["public final class " ++ name ++ " \x7b",
    "  private static final SharedPreferences sPreferences = " ++
      "(SharedPreferences) ProviderContext.getInstance().get(" ++ JavaString.literal name ++ ");"]

def sourceBlocks (package : String) (g : Group) : List String :=
  (if package = "" then [] else ["package " ++ package ++ ";", ""]) ++
    headerLines g.name ++ g.fragments.flatMap (fun fragment => ["", fragment]) ++ ["\x7d"]

theorem closeBlocks_header (g : Group) : closeBlocks (headerLines g.name) = g.preamble ++ "\n" := by
  have hbrace : " \x7b\n" = " \x7b" ++ "\n" := by decide
  unfold closeBlocks headerLines preamble
  rw [hbrace]
  simp only [List.map_cons, List.map_nil, String.join_cons, String.join_nil, String.append_assoc,
    String.append_empty]

theorem closeBlocks_fragments (fragments : List String) :
    closeBlocks (fragments.flatMap fun fragment => ["", fragment]) =
      String.join (fragments.map fun fragment => "\n" ++ fragment ++ "\n") := by
  induction fragments with
  | nil => rfl
  | cons fragment rest ih =>
    rw [List.flatMap_cons, closeBlocks_append, ih]
    simp [closeBlocks, String.append_assoc]

theorem render_eq (g : Group) (package : String) :
    g.render package = closeBlocks (g.sourceBlocks package) := by
  simp only [sourceBlocks, closeBlocks_append, closeBlocks_header, closeBlocks_fragments, render]
  split_ifs <;> simp [closeBlocks, String.append_assoc]

def file (package : String) (g : Group) : String × String :=
  (qualifiedName package g.name, closeBlocks (g.sourceBlocks package))

end Group

namespace Sink
variable {σ : Type} (sink : Sink σ)

def putAll : List (String × String) → σ → List (Except PutError Unit) × σ
  | [], state => ([], state)
  | (name, text) :: rest, state =>
    let (answer, state) := (sink.put state name text).value
    let (answers, state) := putAll rest state
    (answer :: answers, state)

def taken : List (String × String) → List (Except PutError Unit) → List String
  | (name, _) :: files, .ok () :: answers => name :: taken files answers
  | _ :: files, .error _ :: answers => taken files answers
  | _, _ => []

theorem putAll_cons (file : String × String) (files : List (String × String)) (state : σ) :
    sink.putAll (file :: files) state =
      let (answer, after) := (sink.put state file.1 file.2).value
      (answer :: (sink.putAll files after).1, (sink.putAll files after).2) := rfl

theorem writeAll_cons_value (package : String) (g : Group) (rest : List Group) (state : σ) :
    (sink.writeAll package (g :: rest) state).value =
      match (sink.put state (g.file package).1 (g.file package).2).value with
      | (.ok (), after) =>
        ((sink.writeAll package rest after).value.1.map ((g.file package).1 :: ·),
          (sink.writeAll package rest after).value.2)
      | (.error (.refused _), after) => (sink.writeAll package rest after).value
      | (.error (.malformed cause), after) => (.error cause, after) := by
  simp only [writeAll, Group.file, Logged.bind_value, Group.render_eq]
  generalize (sink.put state _ _).value = reply
  rcases reply with ⟨(reason | cause) | _, after⟩ <;> rfl

theorem writeAll_of_ok {package : String} {groups : List Group} {state : σ} {names : List String}
    (h : (sink.writeAll package groups state).value.1 = .ok names) :
    (sink.writeAll package groups state).value.2 =
        (sink.putAll (groups.map (Group.file package)) state).2 ∧
      names = taken (groups.map (Group.file package))
        (sink.putAll (groups.map (Group.file package)) state).1 := by
  induction groups generalizing state names with
  | nil =>
    simp only [writeAll, Logged.pure_value, Except.ok.injEq] at h ⊢
    exact ⟨rfl, h.symm⟩
  | cons g rest ih =>
    rw [writeAll_cons_value] at h ⊢
    rw [List.map_cons, putAll_cons]
    generalize (sink.put state _ _).value = reply at h ⊢
    rcases reply with ⟨(reason | cause) | _, after⟩
    · exact ih h
    · simp at h
    · cases hrest : (sink.writeAll package rest after).value.1 with
      | error cause => simp [hrest, Except.map] at h
      | ok more =>
        obtain ⟨hstate, hnames⟩ := ih hrest
        simp only [hrest, Except.map, Except.ok.injEq] at h
        refine ⟨hstate, ?_⟩
        rw [← h, hnames]
        rfl

/-- A sink that may refuse a file but can always be asked. -/
def OnlyRefuses : Prop :=
  ∀ state name text cause, (sink.put state name text).value.1 ≠ .error (.malformed cause)

variable {sink} in
theorem OnlyRefuses.writeAll_ok (h : sink.OnlyRefuses) (package : String) (groups : List Group)
    (state : σ) : ∃ names, (sink.writeAll package groups state).value.1 = .ok names := by
  induction groups generalizing state with
  | nil => exact ⟨[], rfl⟩
  | cons g rest ih =>
    rw [writeAll_cons_value]
    have hcause := h state (g.file package).1 (g.file package).2
    generalize (sink.put state _ _).value = reply at hcause
    rcases reply with ⟨(reason | cause) | _, after⟩
    · exact ih after
    · exact absurd rfl (hcause cause)
    · obtain ⟨names, hnames⟩ := ih after
      simp only [hnames]
      exact ⟨_, rfl⟩

end Sink

theorem MemorySink.onlyRefuses : MemorySink.sink.OnlyRefuses := by
  intro state name text cause
  simp only [sink, Logged.pure_value]
  split_ifs <;> simp

end PreferenceAccessors
