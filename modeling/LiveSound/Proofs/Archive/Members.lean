import LiveSound.Archive.Tar
import LiveSound.Proofs.Text.Lines
import LiveSound.Proofs.World.Paths
import LiveSound.World.Files

/-!
# Members of an archive

The paths of the members that are read from an archive go down by names, so all of them lie below
the directory in which the archive is unpacked. `unpacked` says what is to stand there then.
-/

namespace LiveSound

namespace Archive

open LiveSound.Path (IsName)

/-! ## Paths -/

/-- The path of a member goes down by names. -/
structure Member.Plain (member : Member) : Prop where
  relative : Path.isAbsolute member.path = false
  names : ∀ name ∈ Path.parts member.path, IsName name

namespace Tar

theorem isName_of_mem_pieces {path name : String} (plain : isPlain path = true)
    (mem : name ∈ (Path.pieces path).filter fun part => part != "" && part != ".") :
    IsName name := by
  obtain ⟨piece, kept⟩ := List.mem_filter.mp mem
  obtain ⟨cs, there, rfl⟩ := List.mem_map.mp piece
  have marks := Text.notMem_of_mem_pieces there
  simp only [Bool.and_eq_true, bne_iff_ne, ne_eq] at kept
  refine ⟨kept.1, by rwa [String.toList_ofList], kept.2, ?_⟩
  intro dots
  rw [dots] at piece
  unfold isPlain at plain
  simp [piece] at plain

theorem isAbsolute_intercalate {names : List String} (h : ∀ name ∈ names, IsName name) :
    Path.isAbsolute (String.intercalate "/" names) = false := by
  cases names with
  | nil => rfl
  | cons name names =>
    have first := h name List.mem_cons_self
    cases names with
    | nil =>
      rw [String.intercalate_singleton]
      exact Path.isAbsolute_name first
    | cons next names =>
      have text : String.intercalate "/" (name :: next :: names) =
          String.ofList
            (name.toList ++ ("/" ++ String.intercalate "/" (next :: names)).toList) := by
        rw [String.intercalate_cons_cons, ← String.toList_inj]
        simp
      have ne : name.toList ≠ [] := by simpa using first.ne_empty
      rw [text, Path.isAbsolute_append ne, String.ofList_toList, Path.isAbsolute_name first]

theorem member?_plain {header path content : Bytes} {mode : Nat} {member : Member}
    (h : member? header path content mode = some member) : member.Plain := by
  unfold member? at h
  extract_lets text isDirectory at h
  split at h
  · rename_i kept
    cases h
    rw [Bool.and_eq_true] at kept
    have names (name : String) := @isName_of_mem_pieces _ name kept.1
    refine ⟨isAbsolute_intercalate names, ?_⟩
    rw [plainPath, Path.parts_intercalate names]
    exact names
  · cases h

theorem readMembers_plain {complete : Bool} {fuel : Nat} {name : Option Bytes} {bytes : Bytes}
    {done : List Member} (h : ∀ member ∈ done, member.Plain) :
    ∀ member ∈ (readMembers complete fuel name bytes done).members, member.Plain := by
  induction fuel generalizing name bytes done with
  | zero => simpa [readMembers] using h
  | succ fuel ih =>
    have stop (complete : Bool) : ∀ member ∈ (Listing.mk done.reverse complete).members,
        member.Plain := by simpa using h
    have more (header path content : Bytes) (mode : Nat) :
        ∀ member ∈ (member? header path content mode).toList ++ done, member.Plain := by
      intro member mem
      rcases List.mem_append.mp mem with new | old
      · exact member?_plain (Option.mem_toList.mp new)
      · exact h member old
    rw [readMembers]
    split
    · exact stop _
    · split
      · exact stop _
      · split
        · exact stop _
        · split
          · split
            · exact stop _
            · dsimp only
              split
              · split
                · exact ih h
                · exact stop _
              · split
                · exact ih h
                · exact stop _
              · split
                · exact ih h
                · exact stop _
              · split
                · exact ih h
                · exact stop _
              · exact stop _
              · exact stop _
              · split
                · exact ih (more _ _ _ _)
                · exact fun member mem => more _ _ _ _ member (List.mem_reverse.mp mem)
          · exact stop _

/-- All that an archive holds goes below the directory in which it is unpacked. -/
theorem read_plain (s : Stream) : ∀ member ∈ (read s).members, member.Plain :=
  readMembers_plain (by simp)

end Tar

/-! ## What is unpacked -/

def Member.fileAt (path : Place) (member : Member) : Option Entry :=
  match member.kind with
  | .file content =>
    if Path.parts member.path = path then some (.file content (member.mode &&& 0o777)) else none
  | .directory => none

def lastFile (members : List Member) (path : Place) : Option Entry :=
  members.reverse.findSome? (·.fileAt path)

/-- What stands under a path below the directory in which members were unpacked: the last file of
this path, or a directory if the path leads to a member. -/
def unpacked (members : List Member) (path : Place) : Option Entry :=
  match lastFile members path with
  | some e => some e
  | none =>
    if path = [] ∨ ∃ member ∈ members, path <+: Path.parts member.path then some .directory
    else none

theorem unpacked_nil (path : Place) :
    unpacked [] path = if path = [] then some .directory else none := by
  simp [unpacked, lastFile]

theorem lastFile_concat (members : List Member) (member : Member) (path : Place) :
    lastFile (members ++ [member]) path = (member.fileAt path).or (lastFile members path) := by
  rw [lastFile, List.reverse_append, List.reverse_singleton, List.singleton_append,
    List.findSome?_cons]
  cases member.fileAt path <;> rfl

end Archive

end LiveSound
