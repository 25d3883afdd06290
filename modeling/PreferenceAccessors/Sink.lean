import PreferenceAccessors.Group

/-!
Where generated files go. A sink takes one file at a time and may refuse it;
the groups after a refused one are still written. A name that the file system
cannot even be asked about, or a text that has no encoding, is another matter:
it ends the writing.

`MemorySink` keeps files in memory and refuses chosen names, either before or
while they are written.
-/

namespace PreferenceAccessors

inductive Malformation
  | nulInPath
  | unencodable (halves : Text.Unencodable)
deriving DecidableEq, Repr

def Malformation.message : Malformation → String
  | nulInPath => "embedded null byte"
  | unencodable halves => halves.message

inductive PutError
  | refused (reason : String)
  | malformed (cause : Malformation)
deriving DecidableEq, Repr

/-- How a state of type `σ` takes a file of a qualified name and a text. -/
structure Sink (σ : Type) where
  put : σ → (qualified text : String) → Logged (Except PutError Unit × σ)

namespace Sink

def writeAll {σ : Type} (sink : Sink σ) (package : String) :
    List Group → σ → Logged (Except Malformation (List String) × σ)
  | [], state => pure (.ok [], state)
  | g :: rest, state => do
    let name := qualifiedName package g.name
    Logged.tell (.sinkAsked name)
    let (outcome, state) ← sink.put state name (g.render package)
    match outcome with
    | .ok () =>
      Logged.tell (.groupWritten name)
      let (outcome, state) ← writeAll sink package rest state
      pure (outcome.map (name :: ·), state)
    | .error (.refused reason) =>
      Logged.tell (.groupNotWritten name reason)
      writeAll sink package rest state
    | .error (.malformed cause) => pure (.error cause, state)

def writeGroups {σ : Type} (sink : Sink σ) (t : GroupTable) (package : String) (state : σ) :
    Logged (Except Malformation (List String) × σ) :=
  sink.writeAll package t.groups state

end Sink

structure MemorySink where
  refusedAtCreation : List String
  refusedAtWriting : List String
  files : List (String × String)
deriving DecidableEq, Repr

namespace MemorySink

def empty : MemorySink := ⟨[], [], []⟩

def store (files : List (String × String)) (name text : String) : List (String × String) :=
  if files.any (·.1 == name) then files.map fun f => if f.1 == name then (name, text) else f
  else files ++ [(name, text)]

def sink : Sink MemorySink where
  put s name text := pure <|
    if s.refusedAtCreation.contains name then
      (.error (.refused ("cannot create " ++ name)), s)
    else if s.refusedAtWriting.contains name then (.error (.refused "no space left"), s)
    else (.ok (), ⟨s.refusedAtCreation, s.refusedAtWriting, store s.files name text⟩)

end MemorySink

end PreferenceAccessors
