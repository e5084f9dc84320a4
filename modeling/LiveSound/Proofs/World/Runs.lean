import LiveSound.Proofs.World.Files
import LiveSound.World.Model

/-!
# Programs run in a world

What a program that may fail does in a world that is a value, part by part.
-/

namespace LiveSound.World

variable {w : World} {α β : Type}

theorem run_bind (x : ExceptT String (StateM World) α)
    (rest : α → ExceptT String (StateM World) β) (w : World) :
    (x >>= rest).run w = match x.run w with
      | (.ok a, w') => (rest a).run w'
      | (.error e, w') => (.error e, w') := by
  have hbind : (x >>= rest).run w =
      (let (r, w') := x.run w; ExceptT.bindCont rest r w') := rfl
  rw [hbind]
  rcases x.run w with ⟨e | a, w'⟩ <;> rfl

/-- What comes after a part that succeeds runs in the world that it leaves. -/
theorem run_bind_ok {x : ExceptT String (StateM World) α} {a : α} {w' : World}
    (h : x.run w = (.ok a, w')) (rest : α → ExceptT String (StateM World) β) :
    (x >>= rest).run w = (rest a).run w' := by
  rw [run_bind, h]

theorem run_bind_eq_ok {x : ExceptT String (StateM World) α}
    {rest : α → ExceptT String (StateM World) β} {b : β} {w' : World}
    (h : (x >>= rest).run w = (.ok b, w')) :
    ∃ a w'', x.run w = (.ok a, w'') ∧ (rest a).run w'' = (.ok b, w') := by
  rw [run_bind] at h
  split at h
  next a w'' hx => exact ⟨a, w'', hx, h⟩
  next => cases h

/-- Whatever it returns has the property. -/
def Yields (P : α → Prop) (x : ExceptT String (StateM World) α) : Prop :=
  ∀ w a w', x.run w = (.ok a, w') → P a

theorem yields_any {x : ExceptT String (StateM World) α} : Yields (fun _ => True) x :=
  fun _ _ _ _ => trivial

theorem yields_pure {P : α → Prop} {a : α} (h : P a) : Yields P (pure a) := by
  intro w b w' ran
  cases ran
  exact h

theorem yields_throw {P : α → Prop} {message : String} : Yields P (throw message) :=
  fun _ _ _ => nofun

theorem yields_inquire {P : α → Prop} {question : StateM World α}
    (h : ∀ w, P (question w).1) : Yields P (inquire question) := by
  intro w a w' ran
  cases ran
  exact h w

theorem Yields.bind {P : β → Prop} {Q : α → Prop} {x : ExceptT String (StateM World) α}
    {rest : α → ExceptT String (StateM World) β} (hx : Yields Q x)
    (h : ∀ a, Q a → Yields P (rest a)) : Yields P (x >>= rest) := by
  intro w b w' ran
  obtain ⟨a, w'', first, second⟩ := run_bind_eq_ok ran
  exact h a (hx w a w'' first) w'' b w' second

theorem attempt_run {ε : Type} (operation : StateM World (Except ε α)) (words : ε → String) :
    (attempt operation words).run w = ((operation w).1.mapError words, (operation w).2) := rfl

theorem attempt_onFiles_run {change : Files → Place → Except OsFault Files}
    {operation : StateM World (Except OsFault Unit)} (h : operation = onFiles change)
    (words : OsFault → String) (w : World) :
    (attempt operation words).run w = match change w.files w.directory with
      | .ok files => (.ok (), { w with files := files })
      | .error fault => (.error (words fault), w) := by
  rw [attempt_run, h, onFiles]
  cases change w.files w.directory <;> rfl

theorem attempt_makeDirectories_run (path : String) (words : OsFault → String) (w : World) :
    (attempt (FileSystem.makeDirectories (m := StateM World) path) words).run w =
      match w.files.makeDirectories w.directory path with
      | .ok files => (.ok (), { w with files := files })
      | .error fault => (.error (words fault), w) := attempt_onFiles_run rfl words w

theorem attempt_writeFile_run (path : String) (content : Bytes) (words : OsFault → String)
    (w : World) :
    (attempt (FileSystem.writeFile (m := StateM World) path content) words).run w =
      match w.files.write w.directory path content with
      | .ok files => (.ok (), { w with files := files })
      | .error fault => (.error (words fault), w) := attempt_onFiles_run rfl words w

theorem attempt_rename_run (source target : String) (words : OsFault → String) (w : World) :
    (attempt (FileSystem.rename (m := StateM World) source target) words).run w =
      match w.files.rename w.directory source target with
      | .ok files => (.ok (), { w with files := files })
      | .error fault => (.error (words fault), w) := attempt_onFiles_run rfl words w

theorem attempt_removeTree_run (path : String) (words : OsFault → String) (w : World) :
    (attempt (FileSystem.removeTree (m := StateM World) path) words).run w =
      match w.files.removeTree w.directory path with
      | .ok files => (.ok (), { w with files := files })
      | .error fault => (.error (words fault), w) := attempt_onFiles_run rfl words w

theorem attempt_setMode_run (path : String) (mode : Nat) (words : OsFault → String) (w : World) :
    (attempt (FileSystem.setMode (m := StateM World) path mode) words).run w =
      match w.files.setMode w.directory path mode with
      | .ok files => (.ok (), { w with files := files })
      | .error fault => (.error (words fault), w) := attempt_onFiles_run rfl words w

theorem inquire_run (question : StateM World α) :
    (inquire question).run w = (.ok (question w).1, (question w).2) := rfl

theorem inquire_unpack_run (compressed : Bool) (content : Bytes) (path : String) (w : World) :
    (inquire (FileSystem.unpack (m := StateM World) compressed content path)).run w =
      (.ok (w.unpacker compressed content w.directory path w.files).1,
        { w with files := (w.unpacker compressed content w.directory path w.files).2 }) := rfl

theorem given_run (given : Except String α) :
    (ExceptT.mk (pure given : StateM World (Except String α))).run w = (given, w) := rfl

theorem attempt_writeFile_eq_ok {path : String} {content : Bytes} {words : OsFault → String}
    {w' : World}
    (h : (attempt (FileSystem.writeFile (m := StateM World) path content) words).run w =
      (.ok (), w')) :
    ∃ files, w.files.write w.directory path content = .ok files ∧
      w' = { w with files := files } := by
  rw [attempt_writeFile_run] at h
  split at h
  next files hwrite =>
    cases h
    exact ⟨files, hwrite, rfl⟩
  next => cases h

/-- The directory of the file is there, so making it changes nothing. -/
theorem makeParent_run {directory name : String} (hname : Path.IsName name)
    (hdirectory : w.files.find? w.directory directory = some .directory)
    (words : String → OsFault → String) :
    (makeParent (m := StateM World) (Path.join directory name) words).run w = (.ok (), w) := by
  have hne := (Files.find?_directory_iff.mp hdirectory).1
  have hparent := Path.parent?_join hname hne
  have hmake := Files.makeDirectories_directory
    (Files.find?_parent_join hname hdirectory hparent)
  unfold makeParent
  rw [hparent]
  simp only
  split
  · rw [attempt_makeDirectories_run, hmake]
  · rfl

end LiveSound.World
