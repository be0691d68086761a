import Oxutrm.Proto.Types

/-!
Where the session registry lives: the candidates an environment has, and the proof, call by
call, that one of them is safe. Between any two system calls other users do what the
directory a candidate lies in lets them do.
-/
namespace Oxutrm.Host
open Proto

inductive FileKind where
  | dir
  | symlink
  | other
  deriving DecidableEq, Repr

/-- What `lstat` says of a path. -/
structure Metadata where
  kind : FileKind
  uid : UInt32
  mode : UInt32
  deriving DecidableEq, Repr

abbrev Files := Text → Option Metadata

/-- The system a process runs on, as far as it is the same from call to call: who the process
is, what lies above a path, and which paths fail for reasons of their own. -/
structure Unix where
  uid : UInt32
  umask : UInt32
  parent : Text → Option Text
  /-- `metadata`, which follows links. -/
  stat : Text → Except Text Metadata
  lookFault : Text → Option Text
  makeFault : Text → Option Text
  modeFault : Text → Bool
  /-- `chmod` through a link fails. -/
  linkFault : Text → Bool

/-- The entries there are, and what others do before each call. -/
structure World where
  files : Files
  turns : List (Files → Files)

namespace World

/-- The others have their turn. -/
def others (w : World) : World :=
  match w.turns with
  | [] => w
  | turn :: turns => { files := turn w.files, turns := turns }

def put (w : World) (path : Text) (md : Metadata) : World :=
  { w with files := Function.update w.files path (some md) }

end World

/-- What an existing path at a candidate turns out to be. -/
inductive DirVerdict where
  | ours
  | oursWrongMode
  | notOurs (why : Text)
  deriving DecidableEq, Repr

inductive PrepareError where
  | unavailable (why : Text)
  /-- The path exists and is not safely ours. -/
  | occupied (why : Text)
  | io (e : Text)
  deriving DecidableEq, Repr

def PrepareError.text : PrepareError → Text
  | .unavailable why | .occupied why | .io why => why

def showUid (uid : UInt32) : Text := Nat.toDigits 10 uid.toNat

section Calls
variable (sys : Unix)

/-- `symlink_metadata`; no error text is `NotFound`. -/
def symlinkMetadata (path : Text) (w : World) : Except (Option Text) Metadata × World :=
  let w := w.others
  match sys.lookFault path with
  | some e => (.error (some e), w)
  | none =>
      match w.files path with
      | some md => (.ok md, w)
      | none => (.error none, w)

/-- `mkdir` with a mode; no error text is `AlreadyExists`. -/
def makeDir (path : Text) (mode : UInt32) (w : World) : Except (Option Text) Unit × World :=
  let w := w.others
  if (w.files path).isSome then (.error none, w)
  else
    match sys.makeFault path with
    | some e => (.error (some e), w)
    | none => (.ok (), w.put path { kind := .dir, uid := sys.uid, mode := mode &&& ~~~sys.umask })

/-- `chmod`, which follows links, to files that are not kept here. -/
def chmod (path : Text) (mode : UInt32) (w : World) : Bool × World :=
  let w := w.others
  match w.files path with
  | none => (false, w)
  | some md =>
      if md.kind = .symlink then (!sys.linkFault path, w)
      else if (md.uid = sys.uid ∨ sys.uid = 0) ∧ sys.modeFault path = false then
        (true, w.put path { md with mode := mode })
      else (false, w)

/-- `set_private_mode` for a directory, and what `prepare_root` makes of its error. -/
def setPrivateMode (path : Text) (w : World) : Except PrepareError Unit × World :=
  match chmod sys path 0o700 w with
  | (true, w) => (.ok (), w)
  | (false, w) => (.error (.io ("chmod 700 ".toList ++ path)), w)

/-- A path is judged by what `lstat` says of it. -/
def dirVerdict (md : Metadata) (ourUid : UInt32) : DirVerdict :=
  if md.kind = .symlink then .notOurs "it is a symbolic link".toList
  else if md.kind ≠ .dir then .notOurs "it is not a directory".toList
  else if md.uid ≠ ourUid then
    .notOurs ("it is owned by uid ".toList ++ showUid md.uid ++ ", not ".toList ++ showUid ourUid)
  else if md.mode &&& 0o777 ≠ 0o700 then .oursWrongMode
  else .ours

def occupiedText (base why : Text) : Text :=
  base ++ " cannot be used because ".toList ++ why ++
    ". Remove or rename it, or set OXUTRM_STATE_DIR to a directory you control.".toList

def racedText (base : Text) : Text :=
  base ++ " could not be created because something else is creating and removing entries there at the same time".toList

def applyVerdict (base : Text) (verdict : DirVerdict) (w : World) : Except PrepareError Unit × World :=
  match verdict with
  | .ours => (.ok (), w)
  | .oursWrongMode => setPrivateMode sys base w
  | .notOurs why => (.error (.occupied (occupiedText base why)), w)

def createRoot (base : Text) (w : World) : Except PrepareError Unit × World :=
  match makeDir sys base 0o700 w with
  | (.ok (), w) => setPrivateMode sys base w
  | (.error none, w) =>
      match symlinkMetadata sys base w with
      | (.ok md, w) => applyVerdict sys base (dirVerdict md sys.uid) w
      | (.error _, w) => (.error (.occupied (racedText base)), w)
  | (.error (some e), w) => (.error (.io e), w)

/-- The directory a candidate lies in: nobody but us, root and the owner of an entry can
rearrange it. -/
def checkParent (base : Text) : Except PrepareError Unit :=
  match sys.parent base with
  | none => .error (.unavailable (base ++ " has no parent".toList))
  | some parent =>
      match sys.stat parent with
      | .error e => .error (.unavailable (parent ++ ": ".toList ++ e))
      | .ok md =>
          if md.kind ≠ .dir then .error (.unavailable (parent ++ " is not a directory".toList))
          else if md.mode &&& 0o22 ≠ 0 ∧ md.mode &&& 0o1000 = 0 then
            .error (.unavailable (parent ++ (" is group- or world-writable without the sticky bit, " ++
              "so a directory created there could be replaced by another user").toList))
          else if md.uid ≠ sys.uid ∧ md.uid ≠ 0 then
            .error (.unavailable (parent ++ " is owned by uid ".toList ++ showUid md.uid ++
              (", which is neither us nor root, so it is not a safe place to create a " ++
                "registry root").toList))
          else .ok ()

def prepareRoot (base : Text) (w : World) : Except PrepareError Unit × World :=
  match checkParent sys base with
  | .error e => (.error e, w)
  | .ok () =>
      match symlinkMetadata sys base w with
      | (.ok md, w) => applyVerdict sys base (dirVerdict md sys.uid) w
      | (.error none, w) => createRoot sys base w
      | (.error (some e), w) => (.error (.io e), w)

end Calls

inductive RegistryRootKind where
  | explicit
  | runtimeDir
  | sharedMemory
  | varTmp
  | homeState
  deriving DecidableEq, Repr

structure RegistryRoot where
  base : Text
  kind : RegistryRootKind
  warning : Option Text
  deriving DecidableEq, Repr

structure RootEnv where
  xdgRuntimeDir : Option Text
  home : Option Text
  overrideDir : Option Text
  linger : Option Bool
  runtimeDirsExist : Bool
  shmExists : Bool

def joinPath (path name : Text) : Text :=
  if path.getLast?.all (· = '/') then path ++ name else path ++ '/' :: name

def stateBase (home : Text) : Text := joinPath (joinPath home ".local".toList) "state".toList

def registrySubdir : Text := "oxutrm".toList

def homeWarning (home : Text) : Text :=
  "oxutrm: no local directory was usable, so sessions are recorded in ".toList ++
    joinPath (stateBase home) registrySubdir ++
    (" instead. Sessions will survive, but on a networked home directory the session socket may " ++
      "be unreliable. Set OXUTRM_STATE_DIR to choose the location yourself.").toList

/-- The places an environment could keep its registry in, best first. -/
def registryRootCandidates (sys : Unix) (env : RootEnv) : List RegistryRoot :=
  match env.overrideDir with
  | some dir => [{ base := dir, kind := .explicit, warning := none }]
  | none =>
      (if env.runtimeDirsExist = true ∧ env.linger = some true then
        env.xdgRuntimeDir.toList.map fun dir => { base := dir, kind := .runtimeDir, warning := none }
      else []) ++
      (if env.shmExists then
        [{ base := "/dev/shm/oxutrm-".toList ++ showUid sys.uid, kind := .sharedMemory, warning := none }]
      else []) ++
      [{ base := "/var/tmp/oxutrm-".toList ++ showUid sys.uid, kind := .varTmp, warning := none }] ++
      env.home.toList.map fun home =>
        { base := stateBase home, kind := .homeState, warning := some (homeWarning home) }

def triedLine (reason : Text × Text) : Text :=
  "\n  tried: ".toList ++ reason.1 ++ ": ".toList ++ reason.2

def isLoneExplicit : List RegistryRoot → Bool
  | [root] => root.kind = .explicit
  | _ => false

/-- Why no candidate could be used. -/
def exhausted (lone : Bool) (reasons : List (Text × Text)) : Text :=
  let lines := reasons.map fun reason => reason.1 ++ ": ".toList ++ reason.2
  match lone, reasons with
  | true, reason :: _ =>
      "OXUTRM_STATE_DIR points at ".toList ++ reason.1 ++ ", which cannot be used: ".toList ++ reason.2
  | _, _ =>
      "nowhere to record sessions. Tried:\n  ".toList ++ "\n  ".toList.intercalate lines ++
        "\nSet OXUTRM_STATE_DIR to a directory that survives logout.".toList

section Walk
variable (sys : Unix)

/-- The candidates one after another, with the reasons of those that were passed over. -/
def walkFrom (lone : Bool) : List RegistryRoot → List (Text × Text) → World →
    Except Text RegistryRoot × World
  | [], reasons, w => (.error (exhausted lone reasons), w)
  | root :: roots, reasons, w =>
      match prepareRoot sys root.base w with
      | (.ok (), w) =>
          (.ok { root with warning := root.warning.map (· ++ reasons.flatMap triedLine) }, w)
      | (.error (.occupied why), w) => (.error why, w)
      | (.error e, w) => walkFrom lone roots (reasons ++ [(root.base, e.text)]) w

def walkCandidates (candidates : List RegistryRoot) (w : World) : Except Text RegistryRoot × World :=
  walkFrom sys (isLoneExplicit candidates) candidates [] w

def resolveRegistryRoot (env : RootEnv) (w : World) : Except Text RegistryRoot × World :=
  walkCandidates sys (registryRootCandidates sys env) w

end Walk

/-- The directory a path lies in belongs to us or to root, and nobody else can write to it, or
its sticky bit is set. -/
def Guarded (sys : Unix) (base : Text) : Prop :=
  ∃ parent md, sys.parent base = some parent ∧ sys.stat parent = .ok md ∧
    (md.mode &&& 0o22 = 0 ∨ md.mode &&& 0o1000 ≠ 0) ∧ (md.uid = sys.uid ∨ md.uid = 0)

/-- What others can do in a guarded directory: they leave what is ours alone, and they cannot
make a directory of ours. -/
structure Interferes (sys : Unix) (turn : Files → Files) : Prop where
  owned : ∀ files base md, Guarded sys base → files base = some md → md.uid = sys.uid →
    turn files base = some md
  foreign : ∀ files base md, Guarded sys base → turn files base = some md → md.kind = .dir →
    md.uid = sys.uid → files base = some md

/-- The others' turns that are still to come. -/
def Watched (sys : Unix) (w : World) : Prop := ∀ turn ∈ w.turns, Interferes sys turn

/-- A directory of ours that is closed to everybody else. -/
def Private (sys : Unix) (files : Files) (base : Text) : Prop :=
  ∃ md, files base = some md ∧ md.kind = .dir ∧ md.uid = sys.uid ∧ md.mode &&& 0o777 = 0o700

section Calls
variable {sys : Unix} {w w' : World} {base : Text} {md : Metadata}

theorem guarded_of_checkParent (sound : checkParent sys base = .ok ()) : Guarded sys base := by
  unfold checkParent at sound
  split at sound
  · cases sound
  next parent at_ =>
    split at sound
    · cases sound
    next md stat =>
      split at sound
      · cases sound
      split at sound
      · cases sound
      next safe =>
        split at sound
        · cases sound
        next owner =>
          refine ⟨parent, md, at_, stat, ?_, ?_⟩
          · by_cases writable : md.mode &&& 0o22 = 0
            · exact .inl writable
            · exact .inr fun sticky => safe ⟨writable, sticky⟩
          · by_cases mine : md.uid = sys.uid
            · exact .inl mine
            · exact .inr (Decidable.byContradiction fun root => owner ⟨mine, root⟩)

theorem Watched.others (watched : Watched sys w) : Watched sys w.others := by
  unfold World.others
  split
  · exact watched
  next turn turns rest =>
    intro later member
    refine watched later ?_
    rw [rest]
    exact List.mem_cons_of_mem _ member

theorem Watched.owned (watched : Watched sys w) (guarded : Guarded sys base) (there : w.files base = some md)
    (mine : md.uid = sys.uid) : w.others.files base = some md := by
  unfold World.others
  split
  · exact there
  next turn turns rest =>
    refine (watched turn ?_).owned w.files base md guarded there mine
    rw [rest]
    exact List.mem_cons_self

theorem Watched.foreign (watched : Watched sys w) (guarded : Guarded sys base)
    (there : w.others.files base = some md) (dir : md.kind = .dir) (mine : md.uid = sys.uid) :
    w.files base = some md := by
  unfold World.others at there
  split at there
  · exact there
  next turn turns rest =>
    refine (watched turn ?_).foreign w.files base md guarded there dir mine
    rw [rest]
    exact List.mem_cons_self

theorem Watched.put (watched : Watched sys w) (path : Text) (md : Metadata) : Watched sys (w.put path md) := watched

theorem Watched.closed (watched : Watched sys w) (guarded : Guarded sys base)
    (closed : Private sys w.files base) : Private sys w.others.files base := by
  obtain ⟨md, there, dir, mine, mode⟩ := closed
  exact ⟨md, watched.owned guarded there mine, dir, mine, mode⟩

theorem verdict_of_ours (dir : md.kind = .dir) (mine : md.uid = sys.uid) :
    dirVerdict md sys.uid = .ours ∧ md.mode &&& 0o777 = 0o700 ∨
      dirVerdict md sys.uid = .oursWrongMode := by
  have plain : md.kind ≠ .symlink := by
    rw [dir]
    decide
  unfold dirVerdict
  rw [if_neg plain, if_neg (not_not.mpr dir), if_neg (not_not.mpr mine)]
  by_cases mode : md.mode &&& 0o777 = 0o700
  · exact .inl ⟨if_neg (not_not.mpr mode), mode⟩
  · exact .inr (if_pos mode)

theorem verdict_of_others (other : ¬ (md.kind = .dir ∧ md.uid = sys.uid)) :
    ∃ why, dirVerdict md sys.uid = .notOurs why := by
  unfold dirVerdict
  split
  · exact ⟨_, rfl⟩
  split
  · exact ⟨_, rfl⟩
  next dir =>
    split
    · exact ⟨_, rfl⟩
    next mine => exact absurd ⟨not_not.mp dir, not_not.mp mine⟩ other

theorem setPrivateMode_ours (watched : Watched sys w) (guarded : Guarded sys base)
    (there : w.files base = some md) (dir : md.kind = .dir) (mine : md.uid = sys.uid) :
    setPrivateMode sys base w =
      if sys.modeFault base = false then (.ok (), w.others.put base { md with mode := 0o700 })
      else (.error (.io ("chmod 700 ".toList ++ base)), w.others) := by
  have kept := watched.owned guarded there mine
  have plain : md.kind ≠ .symlink := by
    rw [dir]
    decide
  have called : chmod sys base 0o700 w =
      if sys.modeFault base = false then (true, w.others.put base { md with mode := 0o700 })
      else (false, w.others) := by
    unfold chmod
    simp only [kept, if_neg plain, mine, true_or, true_and]
  unfold setPrivateMode
  rw [called]
  by_cases fault : sys.modeFault base = false
  · rw [if_pos fault, if_pos fault]
  · rw [if_neg fault, if_neg fault]

theorem private_put (mine : md.uid = sys.uid) (dir : md.kind = .dir) :
    Private sys (w.put base { md with mode := 0o700 }).files base :=
  ⟨_, Function.update_self .., dir, mine, show (0o700 : UInt32) &&& 0o777 = 0o700 by decide⟩

theorem symlinkMetadata_fault {e : Text} (fault : sys.lookFault base = some e) :
    symlinkMetadata sys base w = (.error (some e), w.others) := by
  unfold symlinkMetadata
  rw [fault]

theorem symlinkMetadata_some (fault : sys.lookFault base = none) (there : w.others.files base = some md) :
    symlinkMetadata sys base w = (.ok md, w.others) := by
  unfold symlinkMetadata
  simp only [fault, there]

theorem symlinkMetadata_none (fault : sys.lookFault base = none) (absent : w.others.files base = none) :
    symlinkMetadata sys base w = (.error none, w.others) := by
  unfold symlinkMetadata
  simp only [fault, absent]

theorem makeDir_some (there : w.others.files base = some md) (mode : UInt32) :
    makeDir sys base mode w = (.error none, w.others) := by
  unfold makeDir
  simp only [there, Option.isSome_some, if_true]

theorem makeDir_none (absent : w.others.files base = none) (mode : UInt32) :
    makeDir sys base mode w = match sys.makeFault base with
      | some e => (.error (some e), w.others)
      | none => (.ok (), w.others.put base { kind := .dir, uid := sys.uid, mode := mode &&& ~~~sys.umask }) := by
  unfold makeDir
  simp only [absent, Option.isSome_none, Bool.false_eq_true, if_false]

/-- The refusals of a path that somebody else is at. -/
def Squatted (base why : Text) : Prop := why = racedText base ∨ ∃ reason, why = occupiedText base reason

/-- A directory of ours is made private, unless that fails for a reason of its own. -/
theorem setPrivateMode_private (watched : Watched sys w) (guarded : Guarded sys base)
    (there : w.files base = some md) (dir : md.kind = .dir) (mine : md.uid = sys.uid)
    (ran : setPrivateMode sys base w = (.ok (), w')) : Private sys w'.files base ∧ Watched sys w' := by
  rw [setPrivateMode_ours watched guarded there dir mine] at ran
  split at ran
  · obtain rfl := (Prod.mk.inj ran).2
    exact ⟨private_put mine dir, watched.others.put base _⟩
  · cases (Prod.mk.inj ran).1

theorem applyVerdict_private (watched : Watched sys w) (guarded : Guarded sys base)
    (there : w.files base = some md) (ran : applyVerdict sys base (dirVerdict md sys.uid) w = (.ok (), w')) :
    Private sys w'.files base ∧ Watched sys w' := by
  by_cases ours : md.kind = .dir ∧ md.uid = sys.uid
  · rcases verdict_of_ours ours.1 ours.2 with ⟨good, mode⟩ | wrong
    · rw [good] at ran
      obtain rfl := (Prod.mk.inj ran).2
      exact ⟨⟨md, there, ours.1, ours.2, mode⟩, watched⟩
    · rw [wrong] at ran
      exact setPrivateMode_private watched guarded there ours.1 ours.2 ran
  · obtain ⟨why, refused⟩ := verdict_of_others ours
    rw [refused] at ran
    cases (Prod.mk.inj ran).1

theorem createRoot_private (watched : Watched sys w) (guarded : Guarded sys base)
    (ran : createRoot sys base w = (.ok (), w')) : Private sys w'.files base ∧ Watched sys w' := by
  unfold createRoot at ran
  cases there : w.others.files base with
  | none =>
      rw [makeDir_none there] at ran
      cases fault : sys.makeFault base with
      | some e =>
          rw [fault] at ran
          cases (Prod.mk.inj ran).1
      | none =>
          rw [fault] at ran
          exact setPrivateMode_private (watched.others.put base _) guarded (Function.update_self ..) rfl rfl ran
  | some md =>
      rw [makeDir_some there] at ran
      cases fault : sys.lookFault base with
      | some e =>
          dsimp only at ran
          rw [symlinkMetadata_fault fault] at ran
          cases (Prod.mk.inj ran).1
      | none =>
          dsimp only at ran
          cases again : w.others.others.files base with
          | none =>
              rw [symlinkMetadata_none fault again] at ran
              cases (Prod.mk.inj ran).1
          | some md' =>
              rw [symlinkMetadata_some fault again] at ran
              exact applyVerdict_private watched.others.others guarded again ran

/-- A root that is accepted is a private directory of ours, and stays one. -/
theorem prepareRoot_private (watched : Watched sys w) (ran : prepareRoot sys base w = (.ok (), w')) :
    Guarded sys base ∧ Private sys w'.files base ∧ Watched sys w' := by
  unfold prepareRoot at ran
  cases sound : checkParent sys base with
  | error e =>
      rw [sound] at ran
      cases (Prod.mk.inj ran).1
  | ok =>
      rw [sound] at ran
      have guarded := guarded_of_checkParent sound
      refine ⟨guarded, ?_⟩
      cases fault : sys.lookFault base with
      | some e =>
          dsimp only at ran
          rw [symlinkMetadata_fault fault] at ran
          cases (Prod.mk.inj ran).1
      | none =>
          dsimp only at ran
          cases there : w.others.files base with
          | none =>
              rw [symlinkMetadata_none fault there] at ran
              exact createRoot_private watched.others guarded ran
          | some md =>
              rw [symlinkMetadata_some fault there] at ran
              exact applyVerdict_private watched.others guarded there ran

/-- The same system without the others: what is ours is there, and where nothing is, others
may have put what is theirs. -/
structure Shadows (sys : Unix) (w quiet : World) : Prop where
  still : quiet.turns = []
  watched : Watched sys w
  kept : ∀ base md, Guarded sys base → quiet.files base = some md →
    md.uid = sys.uid ∧ w.files base = some md
  theirs : ∀ base md, Guarded sys base → quiet.files base = none → w.files base = some md →
    ¬ (md.kind = .dir ∧ md.uid = sys.uid)

variable {quiet : World}

theorem Shadows.others_still (shadows : Shadows sys w quiet) : quiet.others = quiet := by
  unfold World.others
  rw [shadows.still]

theorem Shadows.others (shadows : Shadows sys w quiet) : Shadows sys w.others quiet where
  still := shadows.still
  watched := shadows.watched.others
  kept base md guarded there :=
    have ⟨mine, seen⟩ := shadows.kept base md guarded there
    ⟨mine, shadows.watched.owned guarded seen mine⟩
  theirs base md guarded absent there ours :=
    shadows.theirs base md guarded absent
      (shadows.watched.foreign guarded there ours.1 ours.2) ours

theorem Shadows.put (shadows : Shadows sys w quiet) (mine : md.uid = sys.uid) :
    Shadows sys (w.put base md) (quiet.put base md) where
  still := shadows.still
  watched := shadows.watched.put base md
  kept path md' guarded there := by
    change Function.update quiet.files base (some md) path = some md' at there
    by_cases same : path = base
    · subst same
      rw [Function.update_self] at there
      obtain rfl := Option.some.inj there
      exact ⟨mine, Function.update_self ..⟩
    · rw [Function.update_of_ne same] at there
      obtain ⟨ours, seen⟩ := shadows.kept path md' guarded there
      exact ⟨ours, (Function.update_of_ne same _ _).trans seen⟩
  theirs path md' guarded absent there := by
    change Function.update quiet.files base (some md) path = none at absent
    change Function.update w.files base (some md) path = some md' at there
    by_cases same : path = base
    · subst same
      rw [Function.update_self] at absent
      cases absent
    · rw [Function.update_of_ne same] at absent there
      exact shadows.theirs path md' guarded absent there

/-- What is decided while others are at work: to refuse, or what would have been decided
without them. -/
def Agrees (sys : Unix) (base : Text) (seen still : Except PrepareError Unit × World) : Prop :=
  (∃ why, Squatted base why ∧ seen.1 = .error (.occupied why)) ∨
    seen.1 = still.1 ∧ Shadows sys seen.2 still.2

theorem Shadows.setPrivateMode (shadows : Shadows sys w quiet) (guarded : Guarded sys base)
    (there : quiet.files base = some md) (dir : md.kind = .dir) :
    Agrees sys base (setPrivateMode sys base w) (setPrivateMode sys base quiet) := by
  obtain ⟨mine, seen⟩ := shadows.kept base md guarded there
  have alone : Watched sys quiet := by
    intro turn member
    rw [shadows.still] at member
    cases member
  rw [setPrivateMode_ours shadows.watched guarded seen dir mine,
    setPrivateMode_ours alone guarded there dir mine, shadows.others_still]
  split
  · exact .inr ⟨rfl, shadows.others.put mine⟩
  · exact .inr ⟨rfl, shadows.others⟩

theorem Shadows.applyVerdict (shadows : Shadows sys w quiet) (guarded : Guarded sys base)
    (there : quiet.files base = some md) :
    Agrees sys base (applyVerdict sys base (dirVerdict md sys.uid) w)
      (applyVerdict sys base (dirVerdict md sys.uid) quiet) := by
  by_cases ours : md.kind = .dir ∧ md.uid = sys.uid
  · rcases verdict_of_ours ours.1 ours.2 with ⟨good, -⟩ | wrong
    · rw [good]
      exact .inr ⟨rfl, shadows⟩
    · rw [wrong]
      exact shadows.setPrivateMode guarded there ours.1
  · obtain ⟨why, refused⟩ := verdict_of_others ours
    rw [refused]
    exact .inr ⟨rfl, shadows⟩

/-- What is there although nothing of ours is, is refused. -/
theorem Shadows.refused (shadows : Shadows sys w quiet) (guarded : Guarded sys base)
    (absent : quiet.files base = none) (there : w.files base = some md) :
    ∃ why, Squatted base why ∧
      (Host.applyVerdict sys base (dirVerdict md sys.uid) w).1 = .error (.occupied why) := by
  obtain ⟨why, refused⟩ := verdict_of_others (shadows.theirs base md guarded absent there)
  rw [refused]
  exact ⟨_, .inr ⟨why, rfl⟩, rfl⟩

theorem Shadows.createRoot (shadows : Shadows sys w quiet) (guarded : Guarded sys base)
    (absent : quiet.files base = none) :
    Agrees sys base (createRoot sys base w) (createRoot sys base quiet) := by
  have still := shadows.others_still
  unfold Host.createRoot
  cases there : w.others.files base with
  | none =>
      rw [makeDir_none there, makeDir_none (by rw [still]; exact absent), still]
      cases fault : sys.makeFault base with
      | some e => exact .inr ⟨rfl, shadows.others⟩
      | none =>
          exact Shadows.setPrivateMode (shadows.others.put rfl) guarded (Function.update_self ..) rfl
  | some md =>
      refine .inl ?_
      rw [makeDir_some there]
      dsimp only
      cases fault : sys.lookFault base with
      | some e =>
          rw [symlinkMetadata_fault fault]
          exact ⟨_, .inl rfl, rfl⟩
      | none =>
          cases again : w.others.others.files base with
          | none =>
              rw [symlinkMetadata_none fault again]
              exact ⟨_, .inl rfl, rfl⟩
          | some md' =>
              rw [symlinkMetadata_some fault again]
              exact shadows.others.others.refused guarded absent again

theorem Shadows.prepareRoot (shadows : Shadows sys w quiet) (base : Text) :
    Agrees sys base (prepareRoot sys base w) (prepareRoot sys base quiet) := by
  unfold Host.prepareRoot
  cases sound : checkParent sys base with
  | error e => exact .inr ⟨rfl, shadows⟩
  | ok =>
      have guarded := guarded_of_checkParent sound
      have still := shadows.others_still
      dsimp only
      cases fault : sys.lookFault base with
      | some e =>
          rw [symlinkMetadata_fault fault, symlinkMetadata_fault fault, still]
          exact .inr ⟨rfl, shadows.others⟩
      | none =>
          cases absent : quiet.files base with
          | some md =>
              have seen := (shadows.others.kept base md guarded absent).2
              rw [symlinkMetadata_some fault seen, symlinkMetadata_some fault (by rw [still]; exact absent), still]
              exact shadows.others.applyVerdict guarded absent
          | none =>
              rw [symlinkMetadata_none (w := quiet) fault (by rw [still]; exact absent), still]
              cases there : w.others.files base with
              | none =>
                  rw [symlinkMetadata_none fault there]
                  exact shadows.others.createRoot guarded absent
              | some md =>
                  rw [symlinkMetadata_some fault there]
                  exact .inl (shadows.others.refused guarded absent there)

end Calls

section Walks
variable {sys : Unix} {w w' quiet : World} {env : RootEnv} {root c : RegistryRoot} {lone : Bool}
  {roots : List RegistryRoot} {reasons : List (Text × Text)}

theorem walkFrom_ok (prepared : prepareRoot sys c.base w = (.ok (), w')) :
    walkFrom sys lone (c :: roots) reasons w =
      (.ok { c with warning := c.warning.map (· ++ reasons.flatMap triedLine) }, w') := by
  unfold walkFrom
  rw [prepared]

theorem walkFrom_occupied {why : Text} (prepared : prepareRoot sys c.base w = (.error (.occupied why), w')) :
    walkFrom sys lone (c :: roots) reasons w = (.error why, w') := by
  unfold walkFrom
  rw [prepared]

theorem walkFrom_passed {e : PrepareError} (prepared : prepareRoot sys c.base w = (.error e, w'))
    (passed : ∀ why, e ≠ .occupied why) :
    walkFrom sys lone (c :: roots) reasons w =
      walkFrom sys lone roots (reasons ++ [(c.base, e.text)]) w' := by
  conv => lhs; unfold walkFrom
  rw [prepared]
  cases e with
  | unavailable why => rfl
  | occupied why => exact absurd rfl (passed why)
  | io why => rfl

/-- The entries that are ours, and nobody else at work; the file systems fail as they did. -/
def World.alone (sys : Unix) (w : World) : World :=
  { files := fun path => (w.files path).filter (·.uid = sys.uid), turns := [] }

theorem Shadows.alone (watched : Watched sys w) : Shadows sys w (w.alone sys) where
  still := rfl
  watched := watched
  kept base md _ there := by
    obtain ⟨there, mine⟩ := Option.filter_eq_some_iff.mp there
    exact ⟨of_decide_eq_true mine, there⟩
  theirs base md _ absent there ours := by
    have mine : (w.files base).filter (·.uid = sys.uid) = some md := by
      rw [there]
      exact Option.filter_some_pos (decide_eq_true ours.2)
    exact absurd (absent.symm.trans mine) (Option.some_ne_none md).symm

theorem watched_of_passed {e : PrepareError} {base : Text} (watched : Watched sys w)
    (prepared : prepareRoot sys base w = (.error e, w')) (passed : ∀ why, e ≠ .occupied why) :
    Watched sys w' := by
  rcases (Shadows.alone watched).prepareRoot base with ⟨why, -, refused⟩ | ⟨-, shadows⟩
  · rw [prepared] at refused
    exact absurd (Except.error.inj refused) (passed why)
  · rw [prepared] at shadows
    exact shadows.watched

theorem occupied_or_passed (e : PrepareError) :
    (∃ why, e = .occupied why) ∨ ∀ why, e ≠ .occupied why := by
  cases e with
  | occupied why => exact .inl ⟨why, rfl⟩
  | unavailable why => exact .inr fun _ same => (by cases same)
  | io why => exact .inr fun _ same => (by cases same)

theorem walkFrom_private (roots : List RegistryRoot) (reasons : List (Text × Text))
    (watched : Watched sys w) (ran : walkFrom sys lone roots reasons w = (.ok root, w')) :
    (∃ c ∈ roots, c.base = root.base) ∧ Guarded sys root.base ∧ Private sys w'.files root.base ∧
      Watched sys w' := by
  induction roots generalizing reasons w with
  | nil => cases (Prod.mk.inj ran).1
  | cons c roots ih =>
      cases prepared : prepareRoot sys c.base w with
      | mk result u =>
          cases result with
          | ok =>
              rw [walkFrom_ok prepared] at ran
              obtain ⟨same, rfl⟩ := Prod.mk.inj ran
              obtain rfl := Except.ok.inj same
              exact ⟨⟨c, List.mem_cons_self, rfl⟩, prepareRoot_private watched prepared⟩
          | error e =>
              rcases occupied_or_passed e with ⟨why, rfl⟩ | passed
              · rw [walkFrom_occupied prepared] at ran
                cases (Prod.mk.inj ran).1
              · rw [walkFrom_passed prepared passed] at ran
                obtain ⟨⟨c', member, same⟩, rest⟩ :=
                  ih _ (watched_of_passed watched prepared passed) ran
                exact ⟨⟨c', List.mem_cons_of_mem _ member, same⟩, rest⟩

/-- The others can have a walk refused, and nothing else. -/
theorem Shadows.walkFrom (shadows : Shadows sys w quiet) (roots : List RegistryRoot)
    (reasons : List (Text × Text)) :
    (∃ c ∈ roots, ∃ why, Squatted c.base why ∧ (walkFrom sys lone roots reasons w).1 = .error why) ∨
      (walkFrom sys lone roots reasons w).1 = (walkFrom sys lone roots reasons quiet).1 := by
  induction roots generalizing reasons w quiet with
  | nil => exact .inr rfl
  | cons c roots ih =>
      have agrees := shadows.prepareRoot c.base
      cases prepared : Host.prepareRoot sys c.base w with
      | mk result u =>
          cases stilled : Host.prepareRoot sys c.base quiet with
          | mk result' u' =>
              rw [prepared, stilled] at agrees
              rcases agrees with ⟨why, squatted, refused⟩ | ⟨same, shadows'⟩
              · dsimp only at refused
                subst refused
                rw [walkFrom_occupied prepared]
                exact .inl ⟨c, List.mem_cons_self, why, squatted, rfl⟩
              · dsimp only at same
                subst same
                cases result with
                | ok =>
                    rw [walkFrom_ok prepared, walkFrom_ok stilled]
                    exact .inr rfl
                | error e =>
                    rcases occupied_or_passed e with ⟨why, rfl⟩ | passed
                    · rw [walkFrom_occupied prepared, walkFrom_occupied stilled]
                      exact .inr rfl
                    · rw [walkFrom_passed prepared passed, walkFrom_passed stilled passed]
                      rcases ih shadows' (reasons ++ [(c.base, e.text)]) with
                        ⟨c', member, why, squatted, refused⟩ | agrees
                      · exact .inl ⟨c', List.mem_cons_of_mem _ member, why, squatted, refused⟩
                      · exact .inr agrees

/-- What is private in a guarded directory stays private whatever others do. -/
theorem private_later {files : Files} {base : Text} (guarded : Guarded sys base)
    (closed : Private sys files base) (later : List (Files → Files))
    (others : ∀ turn ∈ later, Interferes sys turn) :
    Private sys (later.foldl (fun files turn => turn files) files) base := by
  induction later generalizing files with
  | nil => exact closed
  | cons turn later ih =>
      obtain ⟨md, there, dir, mine, mode⟩ := closed
      have kept := (others turn List.mem_cons_self).owned files base md guarded there mine
      exact ih ⟨md, kept, dir, mine, mode⟩ fun turn member => others turn (List.mem_cons_of_mem _ member)

/-- Squatters never move the registry: on file systems that fail alike, whatever others have put and
put meanwhile where the candidates are, the walk ends as it would without those entries, or it
refuses a path they are at. -/
theorem squatters_never_move_the_root (watched : Watched sys w) (env : RootEnv) :
    (resolveRegistryRoot sys env w).1 = (resolveRegistryRoot sys env (w.alone sys)).1 ∨
      ∃ c ∈ registryRootCandidates sys env, ∃ why, Squatted c.base why ∧
        (resolveRegistryRoot sys env w).1 = .error why :=
  ((Shadows.alone watched).walkFrom _ _).symm

end Walks

namespace Squatting

/-- Everything lies in `/var/tmp`. -/
def unix : Unix where
  uid := 1000
  umask := 0o22
  parent _ := some "/var/tmp".toList
  stat _ := .ok { kind := .dir, uid := 0, mode := 0o1777 }
  lookFault _ := none
  makeFault _ := none
  modeFault _ := false
  linkFault _ := false

def env : RootEnv :=
  { xdgRuntimeDir := none
    home := none
    overrideDir := none
    linger := none
    runtimeDirsExist := true
    shmExists := false }

def varTmp : Text := "/var/tmp/oxutrm-1000".toList

/-- Another user makes a directory where there is none. -/
def plant (path : Text) (files : Files) : Files := fun p =>
  if p = path ∧ files p = none then some { kind := .dir, uid := 1001, mode := 0o755 } else files p

theorem plant_interferes (path : Text) : Interferes unix (plant path) where
  owned files base md _ there _ := by
    have present : ¬ (base = path ∧ files base = none) := by
      rintro ⟨-, absent⟩
      exact absurd (absent.symm.trans there) (Option.some_ne_none md).symm
    exact (if_neg present).trans there
  foreign files base md _ there _ mine := by
    unfold plant at there
    split at there
    · obtain rfl := Option.some.inj there
      exact absurd mine (by decide)
    · exact there

def beside : World := { files := fun _ => none, turns := [plant "/var/tmp/x".toList] }

def chosen : RegistryRoot := { base := varTmp, kind := .varTmp, warning := none }

theorem beside_watched : Watched unix beside := by
  intro turn member
  rw [List.mem_singleton.mp member]
  exact plant_interferes _

/-- Another user is faster than `mkdir`. -/
def raced : World := { files := fun _ => none, turns := [id, plant varTmp] }

theorem raced_watched : Watched unix raced := by
  intro turn member
  rcases List.mem_cons.mp member with rfl | later
  · exact ⟨fun _ _ _ _ there _ => there, fun _ _ _ _ there _ _ => there⟩
  · rw [List.mem_singleton.mp later]
    exact plant_interferes _

theorem squatters_never_move_the_root_x :
    (resolveRegistryRoot unix env (raced.alone unix)).1 = .ok chosen ∧
      ∃ c ∈ registryRootCandidates unix env, ∃ why, Squatted c.base why ∧
        (resolveRegistryRoot unix env raced).1 = .error why := by
  have quiet : (resolveRegistryRoot unix env (raced.alone unix)).1 = .ok chosen := rfl
  have refused : (resolveRegistryRoot unix env raced).1 ≠ .ok chosen := fun same => by cases same
  refine ⟨quiet, (squatters_never_move_the_root raced_watched env).resolve_left ?_⟩
  rw [quiet]
  exact refused

end Squatting

end Oxutrm.Host
