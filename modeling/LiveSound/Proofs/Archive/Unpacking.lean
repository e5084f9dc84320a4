import LiveSound.Archive.Unpacking
import LiveSound.Proofs.Archive.Members
import LiveSound.Proofs.World.Moves

/-!
# Unpacking

Unpacking an archive changes only what is in the directory in which it is unpacked. If it succeeds
in a directory that was empty, all that the archive holds stands there and nothing else
(`unpack_run`).
-/

namespace LiveSound

open Files (destination route Open Below Grounded)

/-! ## Unpackers -/

/-- A path leads to a directory in which nothing is. -/
structure Files.EmptyDirectory (f : Files) (base : Place) (p : String) : Prop where
  opened : f.Open base p
  empty : ∀ path, path ≠ [] → f.entry? (destination base p ++ path) = none

/-- What a library promises that unpacks archives: nothing changes outside of the directory, which
stays one, and all that is made stands in directories. -/
structure Unpacker.Contained (u : Unpacker) : Prop where
  outside : ∀ {compressed bytes base p f q}, f.Open base p → p ≠ "" →
    ¬ destination base p <+: q → Files.entry? (u compressed bytes base p f).2 q = f.entry? q
  top : ∀ {compressed bytes base p f}, f.Open base p → p ≠ "" →
    Files.entry? (u compressed bytes base p f).2 (destination base p) = some .directory
  grounded : ∀ {compressed bytes base p f}, f.Open base p → p ≠ "" → f.Grounded →
    (u compressed bytes base p f).2.Grounded

namespace Archive

variable {f f' : Files} {base : Place} {staging : String} {member : Member}

/-! ## Paths of members -/

section Paths

variable (plain : member.Plain) (hstaging : staging ≠ "")

include plain hstaging

theorem destination_member (base : Place) :
    destination base (Path.join staging member.path) =
      destination base staging ++ Path.parts member.path :=
  Files.destination_join_relative plain.relative hstaging plain.names

theorem makeDirectories_member (opened : f.Open base staging) {p : String}
    (on : ∀ q ∈ route base p, q ∈ route base (Path.join staging member.path))
    (made : f.makeDirectories base p = .ok f') :
    Below (destination base staging) f f' ∧ ∀ path, ¬ path <+: Path.parts member.path →
      f'.entry? (destination base staging ++ path) =
        f.entry? (destination base staging ++ path) := by
  have grows := Files.makeDirectories_grows made
  have same (q : Place)
      (off : ∀ front, front <+: Path.parts member.path → q ≠ destination base staging ++ front) :
      f'.entry? q = f.entry? q := by
    by_cases mem : q ∈ route base p
    · rcases (Files.mem_route_join_relative plain.relative hstaging plain.names).mp (on q mem)
        with above | ⟨front, first, rfl⟩
      · rw [opened q above, grows.entry (opened q above)]
      · exact absurd rfl (off front first)
    · exact Files.makeDirectories_off_route made mem
  refine ⟨⟨fun q off => same q ?_, fun q => grows.entry, fun h => h.makeDirectories made⟩, ?_⟩
  · rintro front - rfl
    exact off (List.prefix_append _ _)
  · intro path off
    refine same _ fun front first eq => off ?_
    rwa [List.append_cancel_left eq]

end Paths

/-! ## One member -/

/-- What is to stand below a directory after one more member was unpacked there. -/
def Adds (top : Place) (member : Member) (f f' : Files) : Prop :=
  ∀ done, (∀ path, f.entry? (top ++ path) = unpacked done path) →
    ∀ path, f'.entry? (top ++ path) = unpacked (done ++ [member]) path

theorem unpacked_concat_other {done : List Member} {path : Place}
    (other : member.fileAt path = none) (off : ¬ path <+: Path.parts member.path) :
    unpacked (done ++ [member]) path = unpacked done path := by
  have more : (∃ m ∈ done ++ [member], path <+: Path.parts m.path) ↔
      ∃ m ∈ done, path <+: Path.parts m.path := by
    simp only [List.mem_append, List.mem_singleton]
    constructor
    · rintro ⟨m, mem | rfl, first⟩
      · exact ⟨m, mem, first⟩
      · exact absurd first off
    · rintro ⟨m, mem, first⟩
      exact ⟨m, .inl mem, first⟩
  rw [unpacked, unpacked, lastFile_concat, other, Option.none_or]
  simp only [more]

/-- On the way to a member there are directories, if no file is in the way. -/
theorem unpacked_concat_above {done : List Member} {path : Place}
    (other : member.fileAt path = none) (on : path <+: Path.parts member.path)
    (free : ∀ content mode, unpacked done path ≠ some (.file content mode)) :
    unpacked (done ++ [member]) path = some .directory := by
  have none : lastFile done path = none := by
    cases last : lastFile done path with
    | none => rfl
    | some e =>
      obtain ⟨m, -, file⟩ := List.exists_of_findSome?_eq_some last
      have there : unpacked done path = some e := by rw [unpacked, last]
      unfold Member.fileAt at file
      split at file
      · split at file
        · cases file
          exact absurd there (free _ _)
        · cases file
      · cases file
  rw [unpacked, lastFile_concat, other, Option.none_or, none]
  exact if_pos (.inr ⟨member, by simp, on⟩)

theorem unpacked_concat_file {done : List Member} {content : Bytes}
    (file : member.kind = .file content) :
    unpacked (done ++ [member]) (Path.parts member.path) =
      some (.file content (member.mode &&& 0o777)) := by
  have here : member.fileAt (Path.parts member.path) =
      some (.file content (member.mode &&& 0o777)) := by
    rw [Member.fileAt, file]
    exact if_pos rfl
  rw [unpacked, lastFile_concat, here]
  rfl

theorem fileAt_directory (directory : member.kind = .directory) (path : Place) :
    member.fileAt path = none := by
  rw [Member.fileAt, directory]

theorem fileAt_other {path : Place} (other : Path.parts member.path ≠ path) :
    member.fileAt path = none := by
  rw [Member.fileAt]
  split
  · exact if_neg other
  · rfl

theorem adds_directory (plain : member.Plain) (hstaging : staging ≠ "")
    (directory : member.kind = .directory) (opened : f.Open base staging)
    (made : f.makeDirectories base (Path.join staging member.path) = .ok f') :
    Adds (destination base staging) member f f' := by
  have ne := Path.join_ne_empty plain.relative hstaging
  intro done before path
  by_cases on : path <+: Path.parts member.path
  · have mem : destination base staging ++ path ∈ route base (Path.join staging member.path) :=
      (Files.mem_route_join_relative plain.relative hstaging plain.names).mpr
        (.inr ⟨path, on, rfl⟩)
    rw [Files.makeDirectories_open made ne _ mem]
    refine (unpacked_concat_above (fileAt_directory directory path) on fun content mode => ?_).symm
    rw [← before]
    exact Files.makeDirectories_no_file made ne mem content mode
  · rw [(makeDirectories_member plain hstaging opened (fun _ => id) made).2 path on, before,
      unpacked_concat_other (fileAt_directory directory path) on]

/-- The directory that a member's file is to stand in. -/
def above (staging : String) (member : Member) : String :=
  (Path.parent? (Path.join staging member.path)).getD staging

/-- Making the directory of a member's file. -/
theorem makeDirectories_above (plain : member.Plain) (hstaging : staging ≠ "")
    (opened : f.Open base staging)
    (made : f.makeDirectories base (above staging member) = .ok f') :
    Below (destination base staging) f f' ∧ ∀ path, ¬ path <+: Path.parts member.path →
      f'.entry? (destination base staging ++ path) =
        f.entry? (destination base staging ++ path) := by
  by_cases hne : above staging member = ""
  · rw [hne] at made
    obtain rfl := Files.makeUpTo_empty made
    exact ⟨.refl _ _, fun _ _ => rfl⟩
  · refine makeDirectories_member plain hstaging opened (fun q mem => ?_) made
    unfold above at hne mem
    cases parent : Path.parent? (Path.join staging member.path) with
    | none =>
      rw [parent] at mem
      exact (Files.mem_route_join_relative plain.relative hstaging plain.names).mpr (.inl mem)
    | some up =>
      rw [parent] at hne mem
      exact Files.route_parent? parent hne mem

theorem adds_file {f₁ f₂ f₃ : Files} {content : Bytes} (plain : member.Plain)
    (hstaging : staging ≠ "") (opened : f.Open base staging)
    (file : member.kind = .file content)
    (made : f.makeDirectories base (above staging member) = .ok f₁)
    (written : f₁.write base (Path.join staging member.path) content = .ok f₂)
    (set : f₂.setMode base (Path.join staging member.path) (member.mode &&& 0o777) = .ok f₃) :
    Adds (destination base staging) member f f₃ := by
  have same₁ := (makeDirectories_above plain hstaging opened made).2
  have there := destination_member plain hstaging base
  obtain ⟨_, _, located, -⟩ := Files.write_eq_ok written
  obtain ⟨-, ⟨mode, entry₂⟩, same₂⟩ := Files.write_entries written
  obtain ⟨entry₃, same₃⟩ := Files.setMode_entries entry₂ set
  intro done before path
  by_cases here : Path.parts member.path = path
  · rw [← here, ← there, entry₃, unpacked_concat_file file]
  · have other : destination base staging ++ path ≠
        destination base (Path.join staging member.path) := by
      rw [there]
      exact fun same => here (List.append_cancel_left same).symm
    rw [same₃ _ other, same₂ _ other]
    by_cases on : path <+: Path.parts member.path
    · have mem : destination base staging ++ path ∈ route base (Path.join staging member.path) :=
        (Files.mem_route_join_relative plain.relative hstaging plain.names).mpr
          (.inr ⟨path, on, rfl⟩)
      have directory := (Files.directory_of_located located mem).resolve_left other
      rw [directory]
      refine (unpacked_concat_above (fileAt_other here) on fun content mode old => ?_).symm
      have kept := (Files.makeDirectories_grows made).entry ((before path).trans old)
      rw [directory] at kept
      cases kept
    · rw [same₁ path on, before, unpacked_concat_other (fileAt_other here) on]

/-- Unpacking a member changes what is below the directory; if it succeeds the member is there. -/
theorem unpackMember_run (plain : member.Plain) (hstaging : staging ≠ "")
    (opened : f.Open base staging) :
    Below (destination base staging) f (unpackMember base staging member f).2 ∧
      ((unpackMember base staging member f).1 = true →
        Adds (destination base staging) member f (unpackMember base staging member f).2) := by
  unfold unpackMember
  cases kind : member.kind with
  | directory =>
    simp only
    cases made : f.makeDirectories base (Path.join staging member.path) with
    | error e => exact ⟨.refl _ _, nofun⟩
    | ok f' =>
      exact ⟨(makeDirectories_member plain hstaging opened (fun _ => id) made).1,
        fun _ => adds_directory plain hstaging kind opened made⟩
  | file content =>
    have inside : destination base staging <+:
        destination base (Path.join staging member.path) := by
      rw [destination_member plain hstaging]
      exact List.prefix_append _ _
    simp only [← above.eq_def]
    cases made : f.makeDirectories base (above staging member) with
    | error e => exact ⟨.refl _ _, nofun⟩
    | ok f₁ =>
      have below₁ := (makeDirectories_above plain hstaging opened made).1
      simp only [after]
      cases written : f₁.write base (Path.join staging member.path) content with
      | error e => exact ⟨below₁, nofun⟩
      | ok f₂ =>
        have below₂ := below₁.trans (Files.below_write inside written)
        simp only
        cases set : f₂.setMode base (Path.join staging member.path) (member.mode &&& 0o777) with
        | error e => exact ⟨below₂, nofun⟩
        | ok f₃ =>
          exact ⟨below₂.trans (Files.below_setMode inside set),
            fun _ => adds_file plain hstaging opened kind made written set⟩

/-! ## All members -/

theorem unpackMembers_run {members : List Member} (plain : ∀ member ∈ members, member.Plain)
    (hstaging : staging ≠ "") (opened : f.Open base staging) :
    Below (destination base staging) f (unpackMembers base staging members f).2 ∧
      ((unpackMembers base staging members f).1 = true → ∀ done,
        (∀ path, f.entry? (destination base staging ++ path) = unpacked done path) →
        ∀ path, Files.entry? (unpackMembers base staging members f).2
            (destination base staging ++ path) = unpacked (done ++ members) path) := by
  induction members generalizing f with
  | nil =>
    refine ⟨.refl _ _, fun _ done before path => ?_⟩
    rw [List.append_nil]
    exact before path
  | cons member rest ih =>
    obtain ⟨below, adds⟩ := unpackMember_run (plain member List.mem_cons_self) hstaging opened
    rw [unpackMembers]
    generalize unpackMember base staging member f = unpacked at below adds ⊢
    rcases unpacked with ⟨_ | _, f₁⟩
    · exact ⟨below, nofun⟩
    · have opened₁ : f₁.Open base staging := opened.of_directories fun q _ => below.directory q
      obtain ⟨below', more⟩ := ih (fun m mem => plain m (List.mem_cons_of_mem _ mem)) opened₁
      refine ⟨below.trans below', fun success done before path => ?_⟩
      rw [more success (done ++ [member]) (adds rfl done before), List.append_assoc]
      rfl

theorem fileAt_of_isDirectory {m : Member} (h : m.isDirectory = true) (path : Place) :
    m.fileAt path = none := by
  unfold Member.isDirectory at h
  split at h
  · rename_i kind
    exact fileAt_directory kind path
  · cases h

theorem findSome?_filter_files (members : List Member) (path : Place) :
    (members.filter (!·.isDirectory)).findSome? (·.fileAt path) =
      members.findSome? (·.fileAt path) := by
  induction members with
  | nil => rfl
  | cons member members ih =>
    cases kind : member.isDirectory with
    | true =>
      rw [List.filter_cons_of_neg (by simp [kind]), ih, List.findSome?_cons,
        fileAt_of_isDirectory kind]
    | false =>
      rw [List.filter_cons_of_pos (by simp [kind]), List.findSome?_cons, List.findSome?_cons, ih]

/-- It makes no difference that directories come last. -/
theorem unpacked_partition (members : List Member) (path : Place) :
    unpacked (members.filter (!·.isDirectory) ++ members.filter Member.isDirectory) path =
      unpacked members path := by
  have directories : (members.filter Member.isDirectory).reverse.findSome? (·.fileAt path) =
      none := by
    rw [List.findSome?_eq_none_iff]
    intro m mem
    exact fileAt_of_isDirectory (List.mem_filter.mp (List.mem_reverse.mp mem)).2 path
  have last : lastFile (members.filter (!·.isDirectory) ++
      members.filter Member.isDirectory) path = lastFile members path := by
    rw [lastFile, List.reverse_append, List.findSome?_append, directories, Option.none_or,
      ← List.filter_reverse, findSome?_filter_files, lastFile]
  have same : (∃ m ∈ members.filter (!·.isDirectory) ++ members.filter Member.isDirectory,
      path <+: Path.parts m.path) ↔ ∃ m ∈ members, path <+: Path.parts m.path := by
    refine exists_congr fun m => and_congr_left fun _ => ?_
    rw [List.mem_append, List.mem_filter, List.mem_filter]
    cases m.isDirectory <;> simp
  rw [unpacked, unpacked, last]
  simp only [same]

/-- Unpacking changes nothing outside of the directory. If it succeeds the archive was whole, and if
the directory was empty, all that the archive holds is there. -/
theorem unpack_run {listing : Listing} (plain : ∀ member ∈ listing.members, member.Plain)
    (hstaging : staging ≠ "") (opened : f.Open base staging) :
    Below (destination base staging) f (unpack base staging listing f).2 ∧
      ((unpack base staging listing f).1 = true → listing.complete = true ∧
        ((∀ path, f.entry? (destination base staging ++ path) = unpacked [] path) →
          ∀ path, Files.entry? (unpack base staging listing f).2
            (destination base staging ++ path) = unpacked listing.members path)) := by
  have plain_of (kept : Member → Bool) : ∀ member ∈ listing.members.filter kept, member.Plain :=
    fun m mem => plain m (List.mem_filter.mp mem).1
  have others : listing.members.filter (not ∘ Member.isDirectory) =
      listing.members.filter (!·.isDirectory) := rfl
  obtain ⟨below, files⟩ := unpackMembers_run (plain_of (!·.isDirectory)) hstaging opened
  unfold unpack
  rw [List.partition_eq_filter_filter, others]
  simp only
  generalize unpackMembers base staging (listing.members.filter (!·.isDirectory)) f = unpacked
    at below files ⊢
  rcases unpacked with ⟨_ | _, f₁⟩
  · exact ⟨below, nofun⟩
  · cases listing.complete with
    | false => exact ⟨below, nofun⟩
    | true =>
      have opened₁ : f₁.Open base staging := opened.of_directories fun q _ => below.directory q
      obtain ⟨below', directories⟩ :=
        unpackMembers_run (plain_of Member.isDirectory) hstaging opened₁
      refine ⟨below.trans below', fun success => ⟨rfl, fun empty path => ?_⟩⟩
      have all := directories success _ (files rfl [] empty) path
      rw [List.nil_append, unpacked_partition] at all
      exact all

/-! ## The unpacker -/

theorem plain_listing (compressed : Bool) (bytes : Bytes) :
    ∀ member ∈ (listing compressed bytes).members, member.Plain := Tar.read_plain _

/-- What succeeds in an empty directory leaves there all that the archive holds. -/
theorem unpacker_success {compressed : Bool} {bytes : Bytes} (hstaging : staging ≠ "")
    (h : f.EmptyDirectory base staging)
    (success : unpacker compressed bytes base staging f = (true, f')) :
    (listing compressed bytes).complete = true ∧
      ∀ path, f'.entry? (destination base staging ++ path) =
        unpacked (listing compressed bytes).members path := by
  obtain ⟨-, whole⟩ := unpack_run (plain_listing compressed bytes) hstaging h.opened
  unfold unpacker at success
  rw [success] at whole
  obtain ⟨complete, all⟩ := whole rfl
  refine ⟨complete, all fun path => ?_⟩
  rw [unpacked_nil]
  split
  · rename_i here
    rw [here, List.append_nil, h.opened.destination]
  · rename_i below
    exact h.empty path below

theorem contained_unpacker : unpacker.Contained where
  outside opened present off := (unpack_run (plain_listing _ _) present opened).1.outside _ off
  top opened present :=
    (unpack_run (plain_listing _ _) present opened).1.directory _ opened.destination
  grounded opened present := (unpack_run (plain_listing _ _) present opened).1.grounded

end Archive

end LiveSound
