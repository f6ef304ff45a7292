import Mathlib

/-!
# File systems

A file system is a finite map from paths to directories and files. What a program cannot decide is
left to the operating system (`Os`): the order in which a walk lists files, and which calls fail.
A write that fails leaves a leading part of its bytes behind. The operations return their result
and the file system after the call; each comes with one lemma on what it changes, whatever fails,
and one on its success when nothing fails.
-/

namespace FileSystem

inductive Node where
  | directory
  | file (bytes : List UInt8)
deriving DecidableEq, Repr

inductive IoError where
  | notFound
  | isADirectory
  | notADirectory
  | other (code : Nat)
deriving DecidableEq, Repr

/-- A file system over names of path components; a path lists its components, outermost first. -/
structure Fs (Name : Type) where
  /-- What stands at which path; the root itself is a directory without an entry. -/
  nodes : AList fun _ : List Name => Node

/-- The calls of the operating system that can fail. -/
inductive Call (Name : Type) where
  | stat (path : List Name)
  | walk (path : List Name)
  | read (path : List Name)
  | createDir (path : List Name)
  | create (path : List Name)
  | write (path : List Name)
  | sync (path : List Name)
  | remove (path : List Name)

/-- The operating system during one operation of a program. -/
structure Os (Name : Type) where
  fault : Call Name → Option IoError
  written : List Name → List UInt8 → List UInt8
  directoryLen : List Name → Nat
  order : List (List Name) → List (List Name)
  written_isPrefix : ∀ path bytes, written path bytes <+: bytes
  order_perm : ∀ paths, (order paths).Perm paths

def Os.Reliable {Name : Type} (os : Os Name) : Prop := ∀ call, os.fault call = none

def Os.ordered {Name : Type} (order : List (List Name) → List (List Name))
    (perm : ∀ paths, (order paths).Perm paths) : Os Name where
  fault _ := none
  written _ bytes := bytes
  directoryLen _ := 0
  order := order
  written_isPrefix _ bytes := List.prefix_refl bytes
  order_perm := perm

theorem Os.ordered_reliable {Name : Type} (order : List (List Name) → List (List Name))
    (perm : ∀ paths, (order paths).Perm paths) : (Os.ordered order perm).Reliable :=
  fun _ => rfl

def Os.inOrder {Name : Type} : Os Name := .ordered id fun _ => List.Perm.refl _

theorem Os.inOrder_reliable {Name : Type} : (Os.inOrder : Os Name).Reliable :=
  Os.ordered_reliable id _

namespace Fs

variable {Name : Type} [DecidableEq Name] {fs : Fs Name} {os : Os Name}
  {path other dir : List Name} {node : Node} {bytes : List UInt8} {base rest : List Name}

def empty : Fs Name := ⟨∅⟩

def get (fs : Fs Name) (path : List Name) : Option Node := fs.nodes.lookup path

def set (fs : Fs Name) (path : List Name) (node : Node) : Fs Name := ⟨fs.nodes.insert path node⟩

def erase (fs : Fs Name) (path : List Name) : Fs Name := ⟨fs.nodes.erase path⟩

@[simp] theorem get_empty : (empty : Fs Name).get path = none := rfl

theorem get_set : (fs.set path node).get other = if other = path then some node else fs.get other := by
  by_cases same : other = path
  · subst same
    rw [if_pos rfl]
    exact AList.lookup_insert _
  · rw [if_neg same]
    exact AList.lookup_insert_ne same

@[simp] theorem get_set_self : (fs.set path node).get path = some node := by
  rw [get_set, if_pos rfl]

theorem get_set_ne (differs : other ≠ path) : (fs.set path node).get other = fs.get other := by
  rw [get_set, if_neg differs]

theorem get_erase : (fs.erase path).get other = if other = path then none else fs.get other := by
  by_cases same : other = path
  · subst same
    rw [if_pos rfl]
    exact AList.lookup_erase _ _
  · rw [if_neg same]
    exact AList.lookup_erase_ne same

def isFile (fs : Fs Name) (path : List Name) : Bool :=
  match fs.get path with
  | some (.file _) => true
  | _ => false

theorem isFile_iff : fs.isFile path = true ↔ ∃ bytes, fs.get path = some (.file bytes) := by
  unfold isFile
  split <;> simp_all

def isDirectory (fs : Fs Name) (path : List Name) : Bool :=
  path.isEmpty || fs.get path == some .directory

/-! ## Files below a path -/

def files (fs : Fs Name) (dir : List Name) : List (List Name) :=
  fs.nodes.keys.filter fun path => dir.isPrefixOf path && fs.isFile path

theorem mem_files : path ∈ fs.files dir ↔ dir <+: path ∧ ∃ bytes, fs.get path = some (.file bytes) := by
  rw [files, List.mem_filter, Bool.and_eq_true, List.isPrefixOf_iff_prefix, isFile_iff]
  constructor
  · rintro ⟨-, below, stands⟩
    exact ⟨below, stands⟩
  · rintro ⟨below, bytes, stands⟩
    refine ⟨?_, below, bytes, stands⟩
    rw [← AList.mem_keys, ← AList.lookup_isSome]
    show (fs.get path).isSome = true
    rw [stands]
    rfl

theorem nodup_files (fs : Fs Name) (dir : List Name) : (fs.files dir).Nodup :=
  fs.nodes.keys_nodup.filter _

/-! ## Calls -/

/-- `Path::exists` — an error counts as absence. -/
def pathExists (fs : Fs Name) (os : Os Name) (path : List Name) : Bool :=
  (os.fault (.stat path)).isNone && (fs.get path).isSome

/-- `fs::metadata` — the length reported for a path. -/
def metadata (fs : Fs Name) (os : Os Name) (path : List Name) : Except IoError Nat :=
  match os.fault (.stat path), fs.get path with
  | some error, _ => .error error
  | none, none => .error .notFound
  | none, some .directory => .ok (os.directoryLen path)
  | none, some (.file bytes) => .ok bytes.length

/-- The files a walk from a path lists; entries that cannot be visited are left out. -/
def walk (fs : Fs Name) (os : Os Name) (dir : List Name) : List (List Name) :=
  (os.order (fs.files dir)).filter fun path => (os.fault (.walk path)).isNone

def read (fs : Fs Name) (os : Os Name) (path : List Name) : Except IoError (List UInt8) :=
  match os.fault (.read path), fs.get path with
  | some error, _ => .error error
  | none, none => .error .notFound
  | none, some .directory => .error .isADirectory
  | none, some (.file bytes) => .ok bytes

def createDir (fs : Fs Name) (os : Os Name) (path : List Name) : Except IoError Unit × Fs Name :=
  match fs.get path, os.fault (.createDir path) with
  | some .directory, _ => (.ok (), fs)
  | some (.file _), _ => (.error .notADirectory, fs)
  | none, some error => (.error error, fs)
  | none, none => (.ok (), fs.set path .directory)

/-- Create the directories that extend `base` along the components of a path. -/
def createDirsFrom (fs : Fs Name) (os : Os Name) (base : List Name) :
    List Name → Except IoError Unit × Fs Name
  | [] => (.ok (), fs)
  | name :: rest =>
    match createDir fs os (base ++ [name]) with
    | (.error error, fs) => (.error error, fs)
    | (.ok (), fs) => createDirsFrom fs os (base ++ [name]) rest

def createDirAll (fs : Fs Name) (os : Os Name) (path : List Name) : Except IoError Unit × Fs Name :=
  createDirsFrom fs os [] path

def create (fs : Fs Name) (os : Os Name) (path : List Name) : Except IoError Unit × Fs Name :=
  match os.fault (.create path), fs.get path with
  | some error, _ => (.error error, fs)
  | none, some .directory => (.error .isADirectory, fs)
  | none, _ =>
    if fs.isDirectory path.dropLast then (.ok (), fs.set path (.file []))
    else (.error .notFound, fs)

/-- `write_all` and `sync_data` on the file just created at a path. -/
def writeAndSync (fs : Fs Name) (os : Os Name) (path : List Name) (bytes : List UInt8) :
    Except IoError Unit × Fs Name :=
  match os.fault (.write path), os.fault (.sync path) with
  | some error, _ => (.error error, fs.set path (.file (os.written path bytes)))
  | none, some error => (.error error, fs.set path (.file (os.written path bytes)))
  | none, none => (.ok (), fs.set path (.file bytes))

def persist (fs : Fs Name) (os : Os Name) (path : List Name) (bytes : List UInt8) :
    Except IoError Unit × Fs Name :=
  match create fs os path with
  | (.error error, fs) => (.error error, fs)
  | (.ok (), fs) => writeAndSync fs os path bytes

/-- `fs::remove_file` — it fails on a directory. -/
def removeFile (fs : Fs Name) (os : Os Name) (path : List Name) : Except IoError Unit × Fs Name :=
  match os.fault (.remove path), fs.get path with
  | some error, _ => (.error error, fs)
  | none, none => (.error .notFound, fs)
  | none, some .directory => (.error .isADirectory, fs)
  | none, some (.file _) => (.ok (), fs.erase path)

/-! ## What the calls do -/

theorem pathExists_eq (reliable : os.Reliable) : pathExists fs os path = (fs.get path).isSome := by
  rw [pathExists, reliable]
  rfl

theorem walk_eq (reliable : os.Reliable) : walk fs os dir = os.order (fs.files dir) := by
  apply List.filter_eq_self.mpr
  intro path _
  rw [reliable]
  rfl

theorem walk_perm (reliable : os.Reliable) : (walk fs os dir).Perm (fs.files dir) := by
  rw [walk_eq reliable]
  exact os.order_perm _

theorem get_of_read (done : read fs os path = .ok bytes) : fs.get path = some (.file bytes) := by
  unfold read at done
  split at done
  · cases done
  · cases done
  · cases done
  · rename_i stands
    cases done
    exact stands

theorem read_file (reliable : os.Reliable) (stands : fs.get path = some (.file bytes)) :
    read fs os path = .ok bytes := by
  simp only [read, reliable (.read path), stands]

theorem get_createDir (os : Os Name) (fs : Fs Name) (path other : List Name) :
    (createDir fs os path).2.get other = fs.get other ∨
      other = path ∧ fs.get other = none ∧ (createDir fs os path).2.get other = some .directory := by
  unfold createDir
  split
  · exact Or.inl rfl
  · exact Or.inl rfl
  · exact Or.inl rfl
  · rename_i absent _
    by_cases same : other = path
    · subst same
      exact Or.inr ⟨rfl, absent, get_set_self⟩
    · exact Or.inl (get_set_ne same)

theorem get_createDirsFrom (os : Os Name) (fs : Fs Name) (base rest other : List Name) :
    (createDirsFrom fs os base rest).2.get other = fs.get other ∨
      (other <+: base ++ rest ∧ fs.get other = none ∧
        (createDirsFrom fs os base rest).2.get other = some .directory) := by
  induction rest generalizing fs base with
  | nil => exact Or.inl rfl
  | cons name rest ih =>
    have step := get_createDir os fs (base ++ [name]) other
    have whole : base ++ [name] ++ rest = base ++ name :: rest := by simp
    rw [createDirsFrom]
    split
    · rename_i error fs' made
      rw [made] at step
      obtain kept | ⟨rfl, absent, created⟩ := step
      · exact Or.inl kept
      · exact Or.inr ⟨whole ▸ List.prefix_append _ _, absent, created⟩
    · rename_i fs' made
      rw [made] at step
      have later := ih fs' (base ++ [name])
      rw [whole] at later
      obtain kept | ⟨rfl, absent, created⟩ := step
      · rwa [kept] at later
      · refine Or.inr ⟨whole ▸ List.prefix_append _ _, absent, ?_⟩
        obtain same | ⟨-, free, -⟩ := later
        · rw [same, created]
        · rw [created] at free
          cases free

theorem get_createDirAll (os : Os Name) (fs : Fs Name) (path other : List Name) :
    (createDirAll fs os path).2.get other = fs.get other ∨
      (other <+: path ∧ fs.get other = none ∧
        (createDirAll fs os path).2.get other = some .directory) :=
  get_createDirsFrom os fs [] path other

theorem get_file_createDirAll :
    (createDirAll fs os path).2.get other = some (.file bytes) ↔ fs.get other = some (.file bytes) := by
  obtain kept | ⟨-, absent, created⟩ := get_createDirAll os fs path other
  · rw [kept]
  · rw [absent, created]
    simp

theorem get_of_createDirsFrom (done : (createDirsFrom fs os base rest).1 = .ok ()) {kept : List Name} (proper : kept ≠ [])
    (below : kept <+: rest) : (createDirsFrom fs os base rest).2.get (base ++ kept) = some .directory := by
  induction rest generalizing fs base kept with
  | nil => exact absurd (List.prefix_nil.mp below) proper
  | cons name rest ih =>
    rw [createDirsFrom] at done ⊢
    split at done
    · cases done
    rename_i fs' made
    obtain ⟨first, tail, rfl⟩ := List.exists_cons_of_ne_nil proper
    obtain ⟨rfl, rest_below⟩ := List.cons_prefix_cons.mp below
    have stands : fs'.get (base ++ [first]) = some .directory := by
      unfold createDir at made
      split at made <;> cases made
      · assumption
      · exact get_set_self
    cases tail with
    | nil =>
      obtain same | ⟨-, absent, -⟩ := get_createDirsFrom os fs' (base ++ [first]) rest (base ++ [first])
      · rw [same, stands]
      · rw [stands] at absent
        cases absent
    | cons second tail =>
      have later := ih done (List.cons_ne_nil second tail) rest_below
      rwa [List.append_assoc] at later

theorem get_of_createDirAll (done : (createDirAll fs os path).1 = .ok ()) (proper : other ≠ [])
    (below : other <+: path) : (createDirAll fs os path).2.get other = some .directory :=
  get_of_createDirsFrom done proper below

theorem createDirsFrom_ok (reliable : os.Reliable) (clear : ∀ kept, kept ≠ [] → kept <+: rest → ∀ bytes, fs.get (base ++ kept) ≠ some (.file bytes)) :
    (createDirsFrom fs os base rest).1 = .ok () := by
  induction rest generalizing fs base with
  | nil => rfl
  | cons name rest ih =>
    have here := clear [name] (List.cons_ne_nil _ _) (by simp)
    have made : (createDir fs os (base ++ [name])).1 = .ok () := by
      unfold createDir
      split
      · rfl
      · rename_i stands
        exact absurd stands (here _)
      · rename_i failed
        rw [reliable] at failed
        cases failed
      · rfl
    rw [createDirsFrom]
    split
    · rename_i failed
      rw [failed] at made
      cases made
    · rename_i fs' done
      apply ih
      intro kept proper below bytes
      have before := clear (name :: kept) (List.cons_ne_nil _ _)
        (List.cons_prefix_cons.mpr ⟨rfl, below⟩) bytes
      have whole : base ++ [name] ++ kept = base ++ name :: kept := by simp
      have step := get_createDir os fs (base ++ [name]) (base ++ name :: kept)
      rw [done] at step
      rw [whole]
      obtain same | ⟨-, -, created⟩ := step
      · rwa [← same] at before
      · rw [created]
        simp

theorem createDirAll_ok (reliable : os.Reliable)
    (clear : ∀ kept, kept ≠ [] → kept <+: path → ∀ bytes, fs.get kept ≠ some (.file bytes)) :
    (createDirAll fs os path).1 = .ok () :=
  createDirsFrom_ok reliable clear

theorem createDirsFrom_same (there : ∀ kept, kept ≠ [] → kept <+: rest → fs.get (base ++ kept) = some .directory) :
    createDirsFrom fs os base rest = (.ok (), fs) := by
  induction rest generalizing base with
  | nil => rfl
  | cons name rest ih =>
    have here := there [name] (List.cons_ne_nil _ _) (by simp)
    have made : createDir fs os (base ++ [name]) = (.ok (), fs) := by
      simp only [createDir, here]
    rw [createDirsFrom, made]
    apply ih
    intro kept proper below
    have later := there (name :: kept) (List.cons_ne_nil _ _)
      (List.cons_prefix_cons.mpr ⟨rfl, below⟩)
    rwa [List.append_assoc]

theorem createDirAll_same (there : ∀ kept, kept ≠ [] → kept <+: path → fs.get kept = some .directory) :
    createDirAll fs os path = (.ok (), fs) :=
  createDirsFrom_same there

/-- What writing a file can do: nothing, or put the content or a leading part of it into a
directory, where no directory stands. -/
theorem persist_cases (fs : Fs Name) (os : Os Name) (path : List Name) (bytes : List UInt8) :
    (∃ error, persist fs os path bytes = (.error error, fs)) ∨
    (fs.isDirectory path.dropLast = true ∧ fs.get path ≠ some .directory ∧
      (persist fs os path bytes = (.ok (), fs.set path (.file bytes)) ∨
        ∃ error part, part <+: bytes ∧
          persist fs os path bytes = (.error error, fs.set path (.file part)))) := by
  have again : ∀ node, (fs.set path (.file [])).set path node = fs.set path node := by
    intro node
    exact congrArg Fs.mk (AList.insert_insert ..)
  unfold persist create
  split
  · rename_i error fs' made
    refine Or.inl ⟨error, ?_⟩
    split at made
    · cases made; rfl
    · cases made; rfl
    · split at made
      · cases made
      · cases made; rfl
  · rename_i fs' made
    right
    split at made
    · cases made
    · cases made
    · rename_i free
      split at made
      · rename_i parent
        cases made
        refine ⟨parent, free, ?_⟩
        unfold writeAndSync
        split
        · exact Or.inr ⟨_, _, os.written_isPrefix path bytes, by rw [again]⟩
        · exact Or.inr ⟨_, _, os.written_isPrefix path bytes, by rw [again]⟩
        · exact Or.inl (by rw [again])
      · cases made

def Opens (os : Os Name) (fs : Fs Name) (path : List Name) : Prop :=
  os.fault (.create path) = none ∧ fs.get path ≠ some .directory

def Syncs (os : Os Name) (path : List Name) : Prop :=
  os.fault (.write path) = none ∧ os.fault (.sync path) = none

theorem persist_closed (bytes : List UInt8) (closed : ¬ Opens os fs path) :
    ∃ error, persist fs os path bytes = (.error error, fs) := by
  unfold persist create
  cases fault : os.fault (.create path) with
  | some error => exact ⟨error, rfl⟩
  | none =>
    cases stands : fs.get path with
    | none => exact absurd ⟨fault, by rw [stands]; exact nofun⟩ closed
    | some node =>
      cases node with
      | file content => exact absurd ⟨fault, by rw [stands]; exact nofun⟩ closed
      | directory => exact ⟨_, rfl⟩

theorem persist_opened (opens : Opens os fs path) (parent : fs.isDirectory path.dropLast = true) :
    Syncs os path ∧ persist fs os path bytes = (.ok (), fs.set path (.file bytes)) ∨
      ¬ Syncs os path ∧ ∃ error,
        persist fs os path bytes = (.error error, fs.set path (.file (os.written path bytes))) := by
  have made : create fs os path = (.ok (), fs.set path (.file [])) := by
    unfold create
    split
    · rename_i failed
      rw [opens.1] at failed
      cases failed
    · rename_i stands
      exact absurd stands opens.2
    · rw [if_pos parent]
  have again : ∀ node, (fs.set path (.file [])).set path node = fs.set path node :=
    fun _ => congrArg Fs.mk (AList.insert_insert ..)
  simp only [persist, made, writeAndSync, again]
  cases write : os.fault (.write path) with
  | some error =>
    refine Or.inr ⟨fun syncs => ?_, error, rfl⟩
    rw [syncs.1] at write
    cases write
  | none =>
    cases sync : os.fault (.sync path) with
    | some error =>
      refine Or.inr ⟨fun syncs => ?_, error, rfl⟩
      rw [syncs.2] at sync
      cases sync
    | none => exact Or.inl ⟨⟨write, sync⟩, rfl⟩

theorem get_persist_ne (differs : other ≠ path) : (persist fs os path bytes).2.get other = fs.get other := by
  obtain ⟨_, same⟩ | ⟨-, -, same | ⟨_, _, -, same⟩⟩ := persist_cases fs os path bytes
  · rw [same]
  · rw [same, get_set_ne differs]
  · rw [same, get_set_ne differs]

theorem persist_eq (bytes : List UInt8) (reliable : os.Reliable)
    (parent : fs.isDirectory path.dropLast = true) (free : fs.get path ≠ some .directory) :
    persist fs os path bytes = (.ok (), fs.set path (.file bytes)) := by
  obtain ⟨-, done⟩ | ⟨fails, -⟩ := persist_opened ⟨reliable _, free⟩ parent
  · exact done
  · exact absurd ⟨reliable _, reliable _⟩ fails

theorem persist_reliable (fs : Fs Name) (reliable : os.Reliable) (path : List Name)
    (bytes : List UInt8) : (∃ error, persist fs os path bytes = (.error error, fs)) ∨
      persist fs os path bytes = (.ok (), fs.set path (.file bytes)) := by
  obtain failed | ⟨parent, free, -⟩ := persist_cases fs os path bytes
  · exact Or.inl failed
  · exact Or.inr (persist_eq _ reliable parent free)

theorem removeFile_ok (reliable : os.Reliable) (stands : fs.get path = some (.file bytes)) :
    removeFile fs os path = (.ok (), fs.erase path) := by
  simp only [removeFile, reliable (.remove path), stands]

/-! ## Trees -/

def Tree (fs : Fs Name) : Prop :=
  ∀ path node, fs.get path = some node →
    ∀ above, above ≠ [] → above <+: path → above ≠ path → fs.get above = some .directory

theorem tree_empty : (empty : Fs Name).Tree := by
  intro path node stands
  cases stands

theorem Tree.set (tree : fs.Tree) (free : fs.get path ≠ some .directory)
    (inside : ∀ above, above ≠ [] → above <+: path → above ≠ path → fs.get above = some .directory) :
    (fs.set path node).Tree := by
  intro other otherNode stands above proper below differs
  have apart : above ≠ path := by
    rintro rfl
    have isBelow : other ≠ above := fun same => differs same.symm
    rw [get_set_ne isBelow] at stands
    exact free (tree other otherNode stands above proper below differs)
  rw [get_set_ne apart]
  by_cases same : other = path
  · subst same
    exact inside above proper below differs
  · rw [get_set_ne same] at stands
    exact tree other otherNode stands above proper below differs

theorem Tree.erase (tree : fs.Tree) (stands : fs.get path = some (.file bytes)) : (fs.erase path).Tree := by
  intro other otherNode found above proper below differs
  rw [get_erase] at found ⊢
  split at found
  · cases found
  · have directory := tree other otherNode found above proper below differs
    rw [if_neg, directory]
    rintro rfl
    rw [stands] at directory
    cases directory

theorem Tree.above (tree : fs.Tree) (parent : fs.isDirectory path.dropLast = true)
    (proper : other ≠ []) (below : other <+: path) (differs : other ≠ path) : fs.get other = some .directory := by
  have inside : other <+: path.dropLast := by
    obtain rfl | ⟨init, last, shape⟩ := List.eq_nil_or_concat path
    · exact absurd (List.prefix_nil.mp below) proper
    · rw [List.concat_eq_append] at shape
      subst shape
      rw [List.dropLast_concat]
      exact (List.prefix_concat_iff.mp below).resolve_left differs
  have named : path.dropLast ≠ [] := by
    intro root
    rw [root] at inside
    exact proper (List.prefix_nil.mp inside)
  have stands : fs.get path.dropLast = some .directory := by
    simpa [isDirectory, named] using parent
  by_cases same : other = path.dropLast
  · rw [same, stands]
  · exact tree _ _ stands other proper inside same

theorem Tree.createDirsFrom (tree : fs.Tree) (there : ∀ above, above ≠ [] → above <+: base → fs.get above = some .directory) :
    (createDirsFrom fs os base rest).2.Tree := by
  induction rest generalizing fs base with
  | nil => exact tree
  | cons name rest ih =>
    have next : ∀ above, above ≠ [] → above <+: base ++ [name] → above ≠ base ++ [name] →
        fs.get above = some .directory := by
      intro above proper below differs
      exact there above proper ((List.prefix_concat_iff.mp below).resolve_left differs)
    rw [Fs.createDirsFrom]
    split
    · rename_i made
      unfold createDir at made
      split at made <;> cases made <;> exact tree
    · rename_i fs' made
      unfold createDir at made
      split at made
      · rename_i stands
        cases made
        apply ih tree
        intro above proper below
        by_cases same : above = base ++ [name]
        · rw [same, stands]
        · exact next above proper below same
      · cases made
      · cases made
      · rename_i absent _
        cases made
        apply ih (tree.set (by rw [absent]; simp) next)
        intro above proper below
        by_cases same : above = base ++ [name]
        · rw [same, get_set_self]
        · rw [get_set_ne same]
          exact next above proper below same

theorem Tree.createDirAll (tree : fs.Tree) : (createDirAll fs os path).2.Tree :=
  tree.createDirsFrom fun _ proper below => absurd (List.prefix_nil.mp below) proper

/-! ## Files after a change -/

theorem files_perm {fs' : Fs Name}
    (same : ∀ path bytes, fs'.get path = some (.file bytes) ↔ fs.get path = some (.file bytes)) :
    (fs'.files dir).Perm (fs.files dir) := by
  rw [List.perm_ext_iff_of_nodup (nodup_files _ _) (nodup_files _ _)]
  intro path
  rw [mem_files, mem_files]
  simp only [same]

theorem files_set (absent : fs.get path = none) (below : dir <+: path) :
    ((fs.set path (.file bytes)).files dir).Perm (path :: fs.files dir) := by
  have fresh : path ∉ fs.files dir := by
    rw [mem_files, absent]
    simp
  rw [List.perm_ext_iff_of_nodup (nodup_files _ _) (List.nodup_cons.mpr ⟨fresh, nodup_files _ _⟩)]
  intro other
  rw [List.mem_cons, mem_files, mem_files]
  by_cases same : other = path
  · subst same
    simp [below]
  · simp [get_set_ne same, same]

theorem files_erase (stands : fs.get path = some (.file bytes)) (below : dir <+: path) :
    (fs.files dir).Perm (path :: (fs.erase path).files dir) := by
  have gone : path ∉ (fs.erase path).files dir := by
    rw [mem_files, get_erase, if_pos rfl]
    simp
  rw [List.perm_ext_iff_of_nodup (nodup_files _ _) (List.nodup_cons.mpr ⟨gone, nodup_files _ _⟩)]
  intro other
  rw [List.mem_cons, mem_files, mem_files, get_erase]
  by_cases same : other = path
  · subst same
    simp [below, stands]
  · simp [same]

theorem files_erase_of_not_isPrefix (apart : ¬ dir <+: path) : (fs.erase path).files dir = fs.files dir := by
  have keys : (fs.erase path).nodes.keys = fs.nodes.keys.filter fun other => decide (other ≠ path) := by
    rw [erase, AList.keys_erase]
    refine (@List.Nodup.erase_eq_filter _ instBEqOfDecidableEq _ _ fs.nodes.keys_nodup path).trans ?_
    exact List.filter_congr fun _ _ => decide_not.symm
  rw [files, keys, List.filter_filter]
  apply List.filter_congr
  intro other _
  by_cases same : other = path
  · subst same
    simp [apart]
  · simp [isFile, get_erase, same]

end Fs

end FileSystem
