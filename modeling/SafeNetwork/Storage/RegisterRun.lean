import SafeNetwork.Library.Runs
import SafeNetwork.Storage.Growth
import SafeNetwork.Storage.SampleStorage

/-!
# Runs of the register storage

Sequences of `write` and `update` calls, without faults of the operating system, which may list the
files of a directory in another order at each call. A call lists the commands of its directory, loads
the register from them, and adds the commands it accepts.
-/

namespace SafeNetwork

open Std Crdt FileSystem BoundedFill

variable {S : StorageScheme}

namespace RegisterStorage

inductive Call (S : StorageScheme) where
  | write (cmd : S.Cmd)
  | update (data : ReplicatedRegisterLog S)

namespace Call

def address : Call S → RegisterAddress
  | .write cmd => cmd.dstAddress
  | .update data => data.address

def log : Call S → List S.Cmd
  | .write cmd => [cmd]
  | .update data => data.opLog

def run (os : Os S.Name) (self : StorageState S) : Call S → S.Result StorageLevel × StorageState S
  | .write cmd => RegisterStorage.write os self cmd
  | .update data => RegisterStorage.update os self data

end Call

variable {self : StorageState S} {os : Os S.Name} {call : Call S} {addr : RegisterAddress} {cmd : S.Cmd}
  {fs : Fs S.Name} {register : Register S.toRegisterScheme}

section

variable (layout : Layout self.fs) (reliable : os.Reliable)
include layout reliable

theorem Call.run_cases (call : Call S) :
    ∃ listed, IsLog self.fs call.address listed ∧
      ((∃ error, call.run os self = (.error error, self) ∧
        (loadLog (RegisterStore.addressToFilepath S call.address) listed = .error error ∨
          ∃ cmd stored, call = .write cmd ∧
            loadLog (RegisterStore.addressToFilepath S call.address) listed = .ok stored ∧
            tryToApplyCmdAgainstRegisterState cmd stored = .error error)) ∨
      ∃ stored, loadLog (RegisterStore.addressToFilepath S call.address) listed = .ok stored ∧
        RegisterStore.WritesLog self os call.address (acceptCmds stored call.log) (call.run os self)) := by
  refine ⟨storedLog os self.fs call.address, storedLog_isLog layout reliable _, ?_⟩
  cases call with
  | write cmd =>
    simp only [run, address, RegisterStorage.write, tryLoadStoredRegister_eq]
    cases loaded : loadLog (RegisterStore.addressToFilepath S cmd.dstAddress)
        (storedLog os self.fs cmd.dstAddress) with
    | error error => exact Or.inl ⟨error, rfl, Or.inl rfl⟩
    | ok stored =>
      cases done : tryToApplyCmdAgainstRegisterState cmd stored with
      | error error =>
        simp only [done]
        exact Or.inl ⟨error, rfl, Or.inr ⟨cmd, stored, rfl, rfl, done⟩⟩
      | ok stored' =>
        refine Or.inr ⟨stored, rfl, ?_⟩
        have accepted : acceptCmds stored [cmd] = [cmd] := acceptCmds_cons_ok done
        simp only [done, log, accepted, opLogPath_tryToApply done, opLogPath_loadLog loaded]
        exact RegisterStore.writeLogToDisk_spec layout reliable
  | update data =>
    simp only [run, address, RegisterStorage.update, tryLoadStoredRegister_eq]
    cases loaded : loadLog (RegisterStore.addressToFilepath S data.address)
        (storedLog os self.fs data.address) with
    | error error => exact Or.inl ⟨error, rfl, Or.inl rfl⟩
    | ok stored =>
      refine Or.inr ⟨stored, rfl, ?_⟩
      simp only [log, opLogPath_loadLog loaded]
      exact RegisterStore.writeLogToDisk_spec layout reliable

theorem Call.run_grows (call : Call S) :
    Grows self (call.log.map (.cmd call.address)) (call.run os self).2 := by
  obtain ⟨listed, -, ⟨error, failed, -⟩ | ⟨stored, -, writes⟩⟩ := call.run_cases layout reliable
  · rw [failed]
    exact .refl layout
  · exact writes.grows.mono (List.map_subset _ (acceptCmds_sublist _ _).subset)

theorem Call.has_run (has : Has (call.run os self).2.fs (.cmd addr cmd)) :
    Has self.fs (.cmd addr cmd) ∨ call.address = addr ∧ cmd ∈ call.log := by
  refine ((call.run_grows layout reliable).new _ has).imp id fun mem => ?_
  obtain ⟨_, inside, same⟩ := List.mem_map.mp mem
  obtain ⟨rfl, rfl⟩ := Item.cmd.inj same
  exact ⟨rfl, inside⟩

theorem Call.run_room (call : Call S) {count : Nat}
    (room : StorageState.Room self (count + call.log.length)) : StorageState.Room (call.run os self).2 count := by
  obtain ⟨listed, -, ⟨error, failed, -⟩ | ⟨stored, -, writes⟩⟩ := call.run_cases layout reliable
  · rw [failed]
    exact room.mono (Nat.le_add_right _ _)
  · have short := (acceptCmds_sublist stored call.log).length_le
    rw [writes.state]
    exact (room.mono (Nat.add_le_add_left short count)).addLog

end

/-! ## Every edit is authorised -/

/-- What the commands of a directory rest on, among the creations of some kind: once a creation is
there, every edit is valid for one. -/
structure Checked (creation : CreateRegister S.toRegisterScheme → Prop) (fs : Fs S.Name)
    (addr : RegisterAddress) : Prop where
  creations : ∀ cmd op, Has fs (.cmd addr cmd) → cmd.create? = some op → creation op
  edits : (∃ cmd, Has fs (.cmd addr cmd) ∧ cmd.create?.isSome) →
    ∀ edit, Has fs (.cmd addr (.edit edit)) → ∃ op, creation op ∧ edit.Valid op

variable {creation : CreateRegister S.toRegisterScheme → Prop}

theorem Checked.rests {listed : List S.Cmd} {stored : StoredRegister S} {path : S.Path}
    (checked : Checked creation self.fs addr) (isLog : IsLog self.fs addr listed)
    (loaded : loadLog path listed = .ok stored) : Rests creation stored ∧ stored.opLog = listed ∧
      (stored.state.isSome ↔ ∃ cmd, Has self.fs (.cmd addr cmd) ∧ cmd.create?.isSome) := by
  have any : (firstCreate listed).isSome ↔ ∃ cmd, Has self.fs (.cmd addr cmd) ∧ cmd.create?.isSome := by
    simp only [firstCreate_isSome, isLog.mem_iff]
  obtain ⟨none, rfl⟩ | ⟨op, first, -, -, rfl⟩ := loadLog_eq_ok.mp loaded
  · rw [none] at any
    exact ⟨⟨nofun, nofun⟩, rfl, any⟩
  · rw [first] at any
    obtain ⟨cmd, mem, isCreate⟩ := exists_of_firstCreate first
    refine ⟨⟨fun register same => ?_, fun _ edit mem => ?_⟩, rfl, any⟩
    · obtain rfl := Option.some.inj same
      exact ⟨op, checked.creations cmd op ((isLog.mem_iff cmd).mp mem) isCreate, by simp, by simp⟩
    · exact checked.edits (any.mp rfl) edit ((isLog.mem_iff _).mp (mem_editsOf.mp mem))

theorem Checked.mono {fewer : Fs S.Name} (checked : Checked creation fs addr)
    (subset : ∀ cmd, Has fewer (.cmd addr cmd) → Has fs (.cmd addr cmd)) : Checked creation fewer addr where
  creations cmd op has := checked.creations cmd op (subset cmd has)
  edits := fun ⟨cmd, has, isCreate⟩ edit hasEdit =>
    checked.edits ⟨cmd, subset cmd has, isCreate⟩ edit (subset _ hasEdit)

theorem Checked.run (layout : Layout self.fs) (reliable : os.Reliable) (checked : Checked creation self.fs addr)
    (known : call.address = addr → ∀ cmd ∈ call.log, ∀ op, cmd.create? = some op → creation op) :
    Checked creation (call.run os self).2.fs addr := by
  by_cases here : call.address = addr
  · subst here
    obtain ⟨listed, isLog, ⟨error, failed, -⟩ | ⟨stored, loaded, writes⟩⟩ :=
      call.run_cases layout reliable
    · rwa [failed]
    obtain ⟨rests, same, created⟩ := checked.rests isLog loaded
    have held : ∀ cmd, Has (call.run os self).2.fs (.cmd call.address cmd) →
        cmd ∈ stored.opLog ∨ cmd ∈ acceptCmds stored call.log := by
      intro cmd has
      rw [same, isLog.mem_iff]
      exact (writes.grows.new _ has).imp id fun mem => by simpa using mem
    constructor
    · intro cmd op has isCreate
      obtain old | ⟨-, new⟩ := Call.has_run layout reliable has
      · exact checked.creations cmd op old isCreate
      · exact known rfl cmd new op isCreate
    · rintro ⟨cmd, has, isCreate⟩ edit hasEdit
      apply rests.acceptCmds (known rfl) _ (held _ hasEdit)
      obtain old | new := held cmd has
      · rw [same, isLog.mem_iff] at old
        exact Or.inl (created.mpr ⟨cmd, old, isCreate⟩)
      · exact Or.inr ⟨cmd, new, isCreate⟩
  · -- Another directory is left alone.
    exact checked.mono fun cmd has =>
      (Call.has_run layout reliable has).resolve_right fun new => here new.1

/-! ## Runs -/

/-- A call with the operating system during it, which does not fail. -/
structure Request (S : StorageScheme) where
  os : Os S.Name
  reliable : os.Reliable
  call : Call S

def Request.apply (self : StorageState S) (request : Request S) : StorageState S :=
  (request.call.run request.os self).2

/-- The storage after requests, one after the other. -/
abbrev runAll (self : StorageState S) (requests : List (Request S)) : StorageState S :=
  Runs.run Request.apply self requests

def delivered (addr : RegisterAddress) (requests : List (Request S)) : List S.Cmd :=
  requests.flatMap fun request => if request.call.address = addr then request.call.log else []

variable {requests : List (Request S)}

theorem mem_delivered : cmd ∈ delivered addr requests ↔
    ∃ request ∈ requests, request.call.address = addr ∧ cmd ∈ request.call.log := by
  rw [delivered, List.mem_flatMap]
  refine exists_congr fun request => and_congr_right fun _ => ?_
  split
  · rename_i same
    simp [same]
  · rename_i differs
    simp [differs]

theorem layout_runAll (layout : Layout self.fs) : Layout (runAll self requests).fs :=
  Runs.run_induction (motive := fun self : StorageState S => Layout self.fs) layout fun _ layout request _ =>
    (request.call.run_grows layout request.reliable).layout

theorem kept_runAll (layout : Layout self.fs) {item : Item S} (has : Has self.fs item) :
    Has (runAll self requests).fs item := by
  have both : Layout (runAll self requests).fs ∧ Has (runAll self requests).fs item :=
    Runs.run_induction (motive := fun self : StorageState S => Layout self.fs ∧ Has self.fs item)
      ⟨layout, has⟩ fun self ⟨layout, has⟩ request _ =>
        have grows := request.call.run_grows layout request.reliable
        ⟨grows.layout, grows.kept item has⟩
  exact both.2

theorem has_runAll (layout : Layout self.fs) (has : Has (runAll self requests).fs (.cmd addr cmd)) :
    Has self.fs (.cmd addr cmd) ∨ cmd ∈ delivered addr requests := by
  have both : Layout (runAll self requests).fs ∧
      ∀ cmd, Has (runAll self requests).fs (.cmd addr cmd) →
        Has self.fs (.cmd addr cmd) ∨ cmd ∈ delivered addr requests := by
    refine Runs.run_induction (motive := fun middle : StorageState S => Layout middle.fs ∧
      ∀ cmd, Has middle.fs (.cmd addr cmd) →
        Has self.fs (.cmd addr cmd) ∨ cmd ∈ delivered addr requests) ⟨layout, fun _ => Or.inl⟩ ?_
    rintro middle ⟨layout, stored⟩ request mem
    refine ⟨(request.call.run_grows layout request.reliable).layout, fun cmd has => ?_⟩
    obtain old | ⟨here, inside⟩ := Call.has_run layout request.reliable has
    · exact stored cmd old
    · exact Or.inr (mem_delivered.mpr ⟨request, mem, here, inside⟩)
  exact both.2 cmd has

theorem checked_runAll (usedSpace : UsedSpace) (requests : List (Request S)) (addr : RegisterAddress) :
    Checked (fun op => ∃ cmd ∈ delivered addr requests, cmd.create? = some op)
      (runAll (DataStorage.new .empty usedSpace) requests).fs addr := by
  suffices both : Layout (runAll (DataStorage.new .empty usedSpace) requests).fs ∧
      Checked (fun op => ∃ cmd ∈ delivered addr requests, cmd.create? = some op)
        (runAll (DataStorage.new .empty usedSpace) requests).fs addr from both.2
  refine Runs.run_induction (motive := fun self : StorageState S => Layout self.fs ∧
    Checked (fun op => ∃ cmd ∈ delivered addr requests, cmd.create? = some op) self.fs addr)
    ⟨placed_empty, nofun, nofun⟩ ?_
  · rintro self ⟨layout, checked⟩ request mem
    refine ⟨(request.call.run_grows layout request.reliable).layout,
      checked.run layout request.reliable fun here cmd inside op isCreate => ?_⟩
    exact ⟨cmd, mem_delivered.mpr ⟨request, mem, here, inside⟩, isCreate⟩

def register? : NodeQueryResponse S → Option (Register S.toRegisterScheme)
  | .getRegister (.ok register) => some register
  | _ => none

theorem register?_eq_some {response : NodeQueryResponse S} :
    register? response = some register ↔ response = .getRegister (.ok register) := by
  unfold register?
  split <;> simp_all

theorem read_get_eq_ok {requester : User S.UserKey} : read os fs (.get addr) requester = .getRegister (.ok register) ↔
      ∃ op, firstCreate (storedLog os fs addr) = some op ∧
        (∀ edit ∈ editsOf (storedLog os fs addr), edit.Suits op.address) ∧
        Fits maxRegNumEntries ∅ ((editsOf (storedLog os fs addr)).map (·.hash)) ∧
        register = op.register.growAll (editsOf (storedLog os fs addr)) := by
  have allowed : ∀ register : Register S.toRegisterScheme,
      register.checkPermissions .read (some requester) = .ok () := fun _ => rfl
  rw [read, NodeQueryResponse.getRegister.injEq, mapError_eq_ok, getRegister,
    tryLoadStoredRegister_eq, bind_eq_ok]
  simp only [loadLog_eq_ok]
  constructor
  · rintro ⟨stored, ⟨-, rfl⟩ | ⟨op, first, suits, fits, rfl⟩, done⟩
    · cases done
    · exact ⟨op, first, suits, fits, (Except.ok.inj done).symm⟩
  · rintro ⟨op, first, suits, fits, rfl⟩
    exact ⟨_, Or.inr ⟨op, first, suits, fits, rfl⟩, by simp only [allowed]; rfl⟩

/-- A request with a call of `write`. -/
def sampleWrite (cmd : sampleStorage.Cmd) : Request sampleStorage :=
  ⟨sampleOs, sampleOs_reliable, .write cmd⟩

def sampleInverted : List (Request sampleStorage) :=
  [sampleWrite (.edit (sampleEdit sampleAddress [] [7] 1 1)),
    sampleWrite (sampleCreate sampleAddress 1 1)]

end RegisterStorage

end SafeNetwork
