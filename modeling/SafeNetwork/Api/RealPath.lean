import SafeNetwork.Api.FilesMap

/-!
# Real paths

`sn_api/src/app/files/realpath.rs`: a path of a files map is walked component by component, `.` and `..`
are left out, and a symlink starts the walk over with its target in place. The walk ends at a file or at
a last component that is neither `.` nor `..`. When a path ends in one of these and the walk meets
neither a file nor a symlink, it starts over with the same components and what it has collected so far,
and this goes on for ever unless the longer and longer paths lead to an entry of the map.
-/

namespace SafeNetwork.FilesMap

open Std

/-! ## The source -/

/-- The component `.`. -/
def dot : Str := ".".toList

/-- The component `..`. -/
def dotDot : Str := "..".toList

def joinPath (components : List Str) : Str := ['/'].intercalate components

def splitPath (path : Str) : List Str := path.splitOn '/'

inductive Found where
  | nothing
  | directory
  | file
  | symlink (fileitem : FileInfo)

def lookUp (self : FilesMap) (newpath : List Str) : ApiResult Found :=
  match self[joinPath newpath]? with
  | none => .ok .nothing
  | some fileitem => do
    let fileMeta ← FileMeta.fromFileItem fileitem
    if fileMeta.isSymlink then .ok (.symlink fileitem)
    else if fileMeta.isDir then .ok .directory
    else .ok .file

inductive Pass where
  | halted (halt : Halt)
  /-- At a symlink, with the components to go on with and whether the walk has ended. -/
  | restarted (path : List Str) (ended : Bool)
  /-- After the last component, with those collected and whether the walk has ended. -/
  | completed (newpath : List Str) (ended : Bool)

def followSymlink (nlinks : Nat) (newpath : List Str) (fileitem : FileInfo) (rest : List Str) :
    ApiResult (List Str) :=
  if nlinks + 1 > 16 then .error (.err (.contentNotFound "Too many levels of symbolic links".toList))
  else do
    match ← fileitem.getattr symlinkTarget with
    | [] =>
      .error (.err (.contentNotFound ("Invalid/corrupted symlink '".toList ++ joinPath newpath ++
        "'. missing target.".toList)))
    | first :: target =>
      if first.utf8Size ≠ 1 then .error .panicked
      else if first = '/' then .ok (splitPath (first :: target) ++ rest)
      else .ok (newpath.dropLast ++ splitPath (first :: target) ++ rest)

def pass (self : FilesMap) (nlinks : Nat) : List Str → Bool → List Str → Pass
  | newpath, ended, [] => .completed newpath ended
  | newpath, ended, cur :: rest =>
    if cur = dot then self.pass nlinks newpath ended rest
    else if cur = dotDot then
      if newpath.dropLast = [] then
        .halted (.err (.contentNotFound "Cannot ascend beyond root directory".toList))
      else self.pass nlinks newpath.dropLast ended rest
    else
      match self.lookUp (newpath ++ [cur]) with
      | .error halt => .halted halt
      | .ok (.symlink fileitem) =>
        match followSymlink nlinks (newpath ++ [cur]) fileitem rest with
        | .error halt => .halted halt
        | .ok path => .restarted path ended
      | .ok .directory => self.pass nlinks (newpath ++ [cur]) (ended || rest.isEmpty) rest
      | .ok .file => self.pass nlinks (newpath ++ [cur]) true rest
      | .ok .nothing => self.pass nlinks (newpath ++ [cur]) (ended || rest.isEmpty) rest

/-- The passes of `RealPath::realpath`, for at most `fuel` of them. -/
def realpathLoop (self : FilesMap) : Nat → Nat → List Str → List Str → Option (ApiResult Str)
  | 0, _, _, _ => none
  | fuel + 1, nlinks, newpath, path =>
    match self.pass nlinks newpath false path with
    | .halted halt => some (.error halt)
    -- A file was met before the symlink: the loop ends, and nothing is collected any more.
    | .restarted _ true => some (.ok (joinPath []))
    | .restarted path false => self.realpathLoop fuel (nlinks + 1) [] path
    | .completed newpath true => some (.ok (joinPath newpath))
    | .completed newpath false => self.realpathLoop fuel nlinks newpath path

/-- `RealPath::realpath`, with at most `fuel` passes. -/
def realpath (self : FilesMap) (fuel : Nat) (fpath : Str) : Option (ApiResult Str) :=
  match fpath with
  | [] => some (.error (.err (.invalidInput "Path cannot be empty".toList)))
  | first :: _ =>
    if first.utf8Size ≠ 1 then some (.error .panicked)
    else if first ≠ '/' then
      some (.error (.err (.invalidInput ("Relative path not supported. ".toList ++ fpath))))
    else self.realpathLoop fuel 0 [] (splitPath fpath)

/-- `RealPath::realpath` returns, be it with an error. -/
def Terminates (self : FilesMap) (fpath : Str) : Prop :=
  ∃ fuel result, self.realpath fuel fpath = some result

variable {self : FilesMap} {nlinks : Nat} {newpath newpath' path path' stack stack' rest : List Str} {cur : Str}
  {ended ended' : Bool} {fpath : Str} {fileitem : FileInfo}

/-! ## A pass that goes on -/

/-- The component is neither `.` nor `..`. -/
def IsName (component : Str) : Prop := component ≠ dot ∧ component ≠ dotDot

instance : DecidablePred IsName := fun component => inferInstanceAs (Decidable (component ≠ dot ∧ component ≠ dotDot))

/-- The last component, if any, is `.` or `..`. -/
def EndsInDots (path : List Str) : Prop := ∀ last ∈ path.getLast?, ¬ IsName last

def Quiet (self : FilesMap) (stack : List Str) : Prop :=
  self.lookUp stack = .ok .nothing ∨ self.lookUp stack = .ok .directory

/-- The components collected by a pass that meets nothing, from some components on; `none` if it ascends
beyond the root. -/
def walk : List Str → List Str → Option (List Str)
  | stack, [] => some stack
  | stack, cur :: rest =>
    if cur = dot then walk stack rest
    else if cur = dotDot then if stack.dropLast = [] then none else walk stack.dropLast rest
    else walk (stack ++ [cur]) rest

def visited : List Str → List Str → List (List Str)
  | _, [] => []
  | stack, cur :: rest =>
    if cur = dot then visited stack rest
    else if cur = dotDot then visited stack.dropLast rest
    else (stack ++ [cur]) :: visited (stack ++ [cur]) rest

theorem pass_ended_ne : self.pass nlinks newpath true path ≠ .completed newpath' false := by
  induction path generalizing newpath with
  | nil => simp [pass]
  | cons cur rest ih =>
    rw [pass]
    repeat' split
    all_goals first | exact ih | simp

theorem endsInDots_cons : EndsInDots (cur :: rest) ↔ (rest = [] → ¬ IsName cur) ∧ EndsInDots rest := by
  cases rest with
  | nil => simp [EndsInDots]
  | cons next rest => simp [EndsInDots]

/-- A pass goes on exactly when the last component is no name and the pass meets nothing but directories,
and then it has collected what is left after `.` and `..`. -/
theorem pass_eq_completed_false : self.pass nlinks newpath false path = .completed newpath' false ↔
      EndsInDots path ∧ walk newpath path = some newpath' ∧ ∀ stack ∈ visited newpath path, self.Quiet stack := by
  induction path generalizing newpath with
  | nil => simp [pass, EndsInDots, walk, visited]
  | cons cur rest ih =>
    rw [endsInDots_cons]
    by_cases isDot : cur = dot
    · have noName : ¬ IsName cur := fun name => name.1 isDot
      simp only [pass, walk, visited, if_pos isDot, ih, noName, not_false_eq_true, implies_true, true_and]
    by_cases isDotDot : cur = dotDot
    · have noName : ¬ IsName cur := fun name => name.2 isDotDot
      simp only [pass, walk, visited, if_neg isDot, if_pos isDotDot, noName, not_false_eq_true, implies_true,
        true_and]
      by_cases beyond : newpath.dropLast = []
      · simp [beyond]
      · simp only [if_neg beyond, ih]
    · have name : IsName cur := ⟨isDot, isDotDot⟩
      have last : self.pass nlinks (newpath ++ [cur]) rest.isEmpty rest = .completed newpath' false ↔
          rest ≠ [] ∧ EndsInDots rest ∧ walk (newpath ++ [cur]) rest = some newpath' ∧
            ∀ stack ∈ visited (newpath ++ [cur]) rest, self.Quiet stack := by
        cases rest with
        | nil => simp [pass]
        | cons next rest => simpa using ih
      simp only [pass, walk, visited, if_neg isDot, if_neg isDotDot, Bool.false_or, name, not_true_eq_false,
        List.forall_mem_cons, Quiet]
      cases found : self.lookUp (newpath ++ [cur]) with
      | error halt => simp
      | ok what =>
        cases what with
        | nothing =>
          simp only [last]
          tauto
        | directory =>
          simp only [last]
          tauto
        | file => simp [pass_ended_ne]
        | symlink fileitem =>
          cases follows : followSymlink nlinks (newpath ++ [cur]) fileitem rest <;> simp [follows]

/-! ## Repeated passes -/

theorem walk_append (collected : List Str) (walked : walk stack path = some stack') :
    walk (collected ++ stack) path = some (collected ++ stack') ∧
      visited (collected ++ stack) path = (visited stack path).map (collected ++ ·) := by
  induction path generalizing stack with
  | nil => simpa [walk, visited] using walked
  | cons cur rest ih =>
    rw [walk] at walked
    by_cases isDot : cur = dot
    · rw [if_pos isDot] at walked
      simpa [walk, visited, isDot] using ih walked
    by_cases isDotDot : cur = dotDot
    · rw [if_neg isDot, if_pos isDotDot] at walked
      split at walked
      · cases walked
      · rename_i inside
        have some : stack ≠ [] := by
          rintro rfl
          exact inside rfl
        have popped : (collected ++ stack).dropLast = collected ++ stack.dropLast :=
          List.dropLast_append_of_ne_nil some
        have nonempty : collected ++ stack.dropLast ≠ [] := by simp [inside]
        simpa only [walk, visited, if_neg isDot, if_pos isDotDot, popped, if_neg nonempty] using ih walked
    · rw [if_neg isDot, if_neg isDotDot] at walked
      simpa [walk, visited, isDot, isDotDot] using ih walked

def repeated (collected : List Str) (passes : Nat) : List Str := (List.replicate passes collected).flatten

theorem repeated_succ (collected : List Str) (passes : Nat) :
    repeated collected (passes + 1) = repeated collected passes ++ collected := by
  simp [repeated, List.replicate_succ']

/-- A path on which the walk never ends: it ends in `.` or `..`, does not ascend beyond the root, and no
pass meets a file or a symlink, with all that the passes before it have collected. -/
def Stuck (self : FilesMap) (path : List Str) : Prop :=
  EndsInDots path ∧ ∃ collected, walk [] path = some collected ∧
    ∀ passes, ∀ stack ∈ visited [] path, self.Quiet (repeated collected passes ++ stack)

theorem Stuck.pass_eq (stuck : self.Stuck path) (nlinks : Nat) :
    ∃ collected, ∀ passes, self.pass nlinks (repeated collected passes) false path =
      .completed (repeated collected (passes + 1)) false := by
  obtain ⟨dots, collected, walked, quiet⟩ := stuck
  refine ⟨collected, fun passes => pass_eq_completed_false.mpr ⟨dots, ?_⟩⟩
  obtain ⟨shifted, looks⟩ := walk_append (repeated collected passes) walked
  rw [List.append_nil] at shifted looks
  refine ⟨by rw [shifted, repeated_succ], ?_⟩
  rw [looks]
  simpa using quiet passes

def Diverges (self : FilesMap) (nlinks : Nat) (newpath path : List Str) : Prop :=
  ∀ fuel, self.realpathLoop fuel nlinks newpath path = none

theorem diverges_iff : self.Diverges nlinks newpath path ↔
    (∃ newpath', self.pass nlinks newpath false path = .completed newpath' false ∧
      self.Diverges nlinks newpath' path) ∨
    ∃ path', self.pass nlinks newpath false path = .restarted path' false ∧
      self.Diverges (nlinks + 1) [] path' := by
  have unfolded : self.Diverges nlinks newpath path ↔
      ∀ fuel, self.realpathLoop (fuel + 1) nlinks newpath path = none := by
    refine ⟨fun diverges fuel => diverges (fuel + 1), fun later fuel => ?_⟩
    cases fuel with
    | zero => rfl
    | succ fuel => exact later fuel
  rw [unfolded]
  simp only [realpathLoop]
  cases self.pass nlinks newpath false path with
  | halted halt => simp
  | restarted path' ended => cases ended <;> simp [Diverges]
  | completed newpath' ended => cases ended <;> simp [Diverges]

theorem diverges_of_completed (goes : self.pass nlinks newpath false path = .completed newpath' false) :
    self.Diverges nlinks newpath path ↔ self.Diverges nlinks newpath' path := by
  rw [diverges_iff, goes]
  simp

theorem diverges_of_restarted (goes : self.pass nlinks newpath false path = .restarted path' false) :
    self.Diverges nlinks newpath path ↔ self.Diverges (nlinks + 1) [] path' := by
  rw [diverges_iff, goes]
  simp

theorem Stuck.diverges (stuck : self.Stuck path) (nlinks : Nat) : self.Diverges nlinks [] path := by
  obtain ⟨collected, goes⟩ := stuck.pass_eq nlinks
  have later : ∀ fuel passes, self.realpathLoop fuel nlinks (repeated collected passes) path = none := by
    intro fuel
    induction fuel with
    | zero => exact fun _ => rfl
    | succ fuel ih =>
      intro passes
      simp only [realpathLoop, goes]
      exact ih (passes + 1)
  exact fun fuel => later fuel 0

/-! ## The paths that symlinks lead to -/

/-- What is collected after some passes that go on. -/
inductive Rounds (self : FilesMap) (nlinks : Nat) (path : List Str) : List Str → Prop
  | start : Rounds self nlinks path []
  | again {newpath newpath' : List Str} : Rounds self nlinks path newpath →
      self.pass nlinks newpath false path = .completed newpath' false → Rounds self nlinks path newpath'

/-- The components that the walk of a path starts over with, after some symlinks. -/
inductive Restarts (self : FilesMap) (fpath : Str) : Nat → List Str → Prop
  | start : Restarts self fpath 0 (splitPath fpath)
  | symlink {nlinks : Nat} {path newpath path' : List Str} : Restarts self fpath nlinks path →
      Rounds self nlinks path newpath → self.pass nlinks newpath false path = .restarted path' false →
      Restarts self fpath (nlinks + 1) path'

theorem Rounds.diverges_iff (rounds : self.Rounds nlinks path newpath) :
    self.Diverges nlinks newpath path ↔ self.Diverges nlinks [] path := by
  induction rounds with
  | start => rfl
  | again _ goes ih => rw [← ih, diverges_of_completed goes]

theorem Restarts.diverges (restarts : self.Restarts fpath nlinks path)
    (diverges : self.Diverges nlinks [] path) : self.Diverges 0 [] (splitPath fpath) := by
  induction restarts with
  | start => exact diverges
  | symlink _ rounds goes ih =>
    exact ih (rounds.diverges_iff.mp ((diverges_of_restarted goes).mpr diverges))

theorem stuck_of_rounds (nlinks : Nat) (goes : ∀ newpath, self.Rounds nlinks path newpath →
    ∃ newpath', self.pass nlinks newpath false path = .completed newpath' false) : self.Stuck path := by
  obtain ⟨collected, first⟩ := goes [] .start
  obtain ⟨dots, walked, -⟩ := pass_eq_completed_false.mp first
  -- Each pass collects the same components once more.
  have next : ∀ passes newpath', self.pass nlinks (repeated collected passes) false path =
      .completed newpath' false → newpath' = repeated collected (passes + 1) := by
    intro passes newpath' completed
    obtain ⟨-, walked', -⟩ := pass_eq_completed_false.mp completed
    have shifted := (walk_append (repeated collected passes) walked).1
    rw [List.append_nil, walked', Option.some.injEq, ← repeated_succ] at shifted
    exact shifted
  have rounds : ∀ passes, self.Rounds nlinks path (repeated collected passes) := by
    intro passes
    induction passes with
    | zero => exact .start
    | succ passes ih =>
      obtain ⟨newpath', completed⟩ := goes _ ih
      exact next passes newpath' completed ▸ ih.again completed
  refine ⟨dots, collected, walked, fun passes stack mem => ?_⟩
  obtain ⟨newpath', completed⟩ := goes _ (rounds passes)
  obtain ⟨-, -, quiet⟩ := pass_eq_completed_false.mp completed
  refine quiet _ ?_
  have looks := (walk_append (repeated collected passes) walked).2
  rw [List.append_nil] at looks
  rw [looks]
  exact List.mem_map_of_mem mem

theorem exists_symlink_of_restarted (goes : self.pass nlinks newpath ended path = .restarted path' ended') :
    ∃ stack fileitem rest, rest <:+ path ∧ self.lookUp stack = .ok (.symlink fileitem) ∧
      followSymlink nlinks stack fileitem rest = .ok path' := by
  induction path generalizing newpath ended with
  | nil => simp [pass] at goes
  | cons cur rest ih =>
    have later : ∀ {newpath ended}, self.pass nlinks newpath ended rest = .restarted path' ended' →
        ∃ stack fileitem rest', rest' <:+ cur :: rest ∧ self.lookUp stack = .ok (.symlink fileitem) ∧
          followSymlink nlinks stack fileitem rest' = .ok path' := by
      intro newpath ended goes
      obtain ⟨stack, fileitem, rest', suffix, found, follows⟩ := ih goes
      exact ⟨stack, fileitem, rest', suffix.trans (List.suffix_cons cur rest), found, follows⟩
    rw [pass] at goes
    split at goes
    · exact later goes
    split at goes
    · split at goes
      · cases goes
      · exact later goes
    split at goes
    · cases goes
    · rename_i fileitem found
      split at goes
      · cases goes
      · rename_i path'' follows
        cases goes
        exact ⟨_, fileitem, rest, List.suffix_cons cur rest, found, follows⟩
    · exact later goes
    · exact later goes
    · exact later goes

theorem nlinks_lt_of_followSymlink (follows : followSymlink nlinks stack fileitem rest = .ok path) : nlinks < 16 := by
  unfold followSymlink at follows
  split at follows
  · cases follows
  · omega

theorem exists_stuck (restarts : self.Restarts fpath nlinks path) (diverges : self.Diverges nlinks [] path) :
    ∃ nlinks path, self.Restarts fpath nlinks path ∧ self.Stuck path := by
  -- By induction on the number of symlinks that can still be followed.
  induction left : 16 - nlinks using Nat.strong_induction_on generalizing nlinks path with
  | _ left ih =>
    by_cases symlink : ∃ newpath path', self.Rounds nlinks path newpath ∧
        self.pass nlinks newpath false path = .restarted path' false
    · obtain ⟨newpath, path', rounds, goes⟩ := symlink
      obtain ⟨stack, fileitem, rest, -, -, follows⟩ := exists_symlink_of_restarted goes
      have fewer := nlinks_lt_of_followSymlink follows
      refine ih (16 - (nlinks + 1)) (by omega) (restarts.symlink rounds goes) ?_ rfl
      exact (diverges_of_restarted goes).mp (rounds.diverges_iff.mpr diverges)
    · refine ⟨nlinks, path, restarts, stuck_of_rounds nlinks fun newpath rounds => ?_⟩
      obtain ⟨newpath', goes, -⟩ | ⟨path', goes, -⟩ := diverges_iff.mp (rounds.diverges_iff.mpr diverges)
      · exact ⟨newpath', goes⟩
      · exact absurd ⟨newpath, path', rounds, goes⟩ symlink

theorem not_terminates_iff (absolute : fpath.head? = some '/') :
    ¬ self.Terminates fpath ↔ ∃ nlinks path, self.Restarts fpath nlinks path ∧ self.Stuck path := by
  obtain ⟨rest, rfl⟩ : ∃ rest, fpath = '/' :: rest := by
    cases fpath with
    | nil => simp at absolute
    | cons first rest => exact ⟨rest, by simpa using absolute⟩
  have loops : ¬ self.Terminates ('/' :: rest) ↔ self.Diverges 0 [] (splitPath ('/' :: rest)) := by
    have slash : ('/' : Char).utf8Size = 1 := by decide
    simp only [Terminates, Diverges, not_exists, realpath, slash, ne_eq, not_true_eq_false, ↓reduceIte,
      Option.eq_none_iff_forall_ne_some]
  rw [loops]
  constructor
  · exact exists_stuck .start
  · rintro ⟨nlinks, path, restarts, stuck⟩
    exact restarts.diverges (stuck.diverges nlinks)

/-! ## Paths that end in names -/

def EndsInName (path : List Str) : Prop := ∃ last ∈ path.getLast?, IsName last

def TargetsEndInNames (self : FilesMap) : Prop :=
  ∀ (key : Str) (fileitem : FileInfo) (target : Str), self[key]? = some fileitem →
    fileitem[predicateType]? = some mimetypeFilesystemSymlink → fileitem[symlinkTarget]? = some target →
    EndsInName (splitPath target)

theorem type_of_lookUp (found : self.lookUp stack = .ok (.symlink fileitem)) :
    self[joinPath stack]? = some fileitem ∧ fileitem[predicateType]? = some mimetypeFilesystemSymlink := by
  unfold lookUp at found
  split at found
  · cases found
  · rename_i item there
    cases read : FileMeta.fromFileItem item with
    | error halt => simp [read, bind, Except.bind] at found
    | ok fileMeta =>
      simp only [read, bind, Except.bind] at found
      split at found
      · rename_i symlink
        cases found
        have type : fileMeta.fileType = mimetypeFilesystemSymlink := by
          simpa [FileMeta.isSymlink, FileMeta.filetypeIsSymlink] using symlink
        exact ⟨there, type ▸ (FileMeta.fromFileItem_eq_ok.mp read).2.2.2.1⟩
      · split at found <;> cases found

theorem endsInName_followSymlink (targets : ∀ target, fileitem[symlinkTarget]? = some target →
    EndsInName (splitPath target)) (follows : followSymlink nlinks stack fileitem rest = .ok path')
    (suffix : rest <:+ path) (name : EndsInName path) : EndsInName path' := by
  obtain ⟨before, target, there, rfl⟩ : ∃ before target, fileitem[symlinkTarget]? = some target ∧
      path' = before ++ splitPath target ++ rest := by
    unfold followSymlink FileInfo.getattr at follows
    split at follows
    · cases follows
    cases there : fileitem[symlinkTarget]? with
    | none => simp [there, bind, Except.bind] at follows
    | some target =>
      cases target with
      | nil => simp [there, bind, Except.bind] at follows
      | cons first target =>
        simp only [there, bind, Except.bind] at follows
        split at follows
        · cases follows
        · split at follows
          · exact ⟨[], _, rfl, by simpa using follows.symm⟩
          · exact ⟨stack.dropLast, _, rfl, by simpa using follows.symm⟩
  obtain ⟨last, final, isName⟩ := targets target there
  by_cases none : rest = []
  · refine ⟨last, ?_, isName⟩
    rw [none, List.append_nil, List.getLast?_append]
    simp [Option.mem_def.mp final]
  · obtain ⟨front, rfl⟩ := suffix
    obtain ⟨last, final, isName⟩ := name
    refine ⟨last, ?_, isName⟩
    rw [List.getLast?_append] at final ⊢
    cases ends : rest.getLast? with
    | none => exact absurd (List.getLast?_eq_none_iff.mp ends) none
    | some other => simpa [ends] using final

theorem Restarts.endsInName (targets : self.TargetsEndInNames) (name : EndsInName (splitPath fpath))
    (restarts : self.Restarts fpath nlinks path) : EndsInName path := by
  induction restarts with
  | start => exact name
  | symlink _ _ goes ih =>
    obtain ⟨stack, fileitem, rest, suffix, found, follows⟩ := exists_symlink_of_restarted goes
    obtain ⟨there, type⟩ := type_of_lookUp found
    exact endsInName_followSymlink (fun target => targets _ fileitem target there type) follows suffix ih

/-- `realpath` of an absolute path returns exactly when the walk comes to no path on which it never ends:
one that ends in `.` or `..` and leads past neither a file nor a symlink. It returns when the path and the
targets of all symlinks end in names. -/
theorem realpath_terminates_iff (self : FilesMap) (fpath : Str) (absolute : fpath.head? = some '/') :
    (self.Terminates fpath ↔ ∀ nlinks path, self.Restarts fpath nlinks path → ¬ self.Stuck path) ∧
    (EndsInName (splitPath fpath) → self.TargetsEndInNames → self.Terminates fpath) := by
  have iff : self.Terminates fpath ↔ ∀ nlinks path, self.Restarts fpath nlinks path → ¬ self.Stuck path := by
    rw [← not_iff_not, not_terminates_iff absolute]
    simp
  refine ⟨iff, fun name targets => iff.mpr fun nlinks path restarts stuck => ?_⟩
  obtain ⟨last, final, isName⟩ := restarts.endsInName targets name
  exact stuck.1 last final isName

/-! ## Samples -/

/-- The path `/a/b` of an empty map is its own real path. -/
theorem realpath_terminates_sample : (∅ : FilesMap).Terminates "/a/b".toList := by
  refine (realpath_terminates_iff ∅ "/a/b".toList rfl).2 ⟨"b".toList, by decide, by decide, by decide⟩ ?_
  intro key fileitem target there
  simp at there

/-- The walk of `/a/.` never ends in an empty map. -/
theorem realpath_diverges : "/a/.".toList.head? = some '/' ∧ ¬ (∅ : FilesMap).Terminates "/a/.".toList := by
  refine ⟨rfl, (not_terminates_iff rfl).mpr ⟨0, splitPath "/a/.".toList, .start, ?_⟩⟩
  refine ⟨?_, ["".toList, "a".toList], by decide, fun passes stack _ => Or.inl (by simp [lookUp])⟩
  have ends : (splitPath "/a/.".toList).getLast? = some dot := by decide
  intro last final name
  rw [ends] at final
  exact name.1 (Option.mem_some.mp final).symm

end SafeNetwork.FilesMap
