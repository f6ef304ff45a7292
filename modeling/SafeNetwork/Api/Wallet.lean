import SafeNetwork.Api.Multimap
import SafeNetwork.Client.Transfers

/-!
# Wallets

`sn_api/src/app/wallet.rs`: a wallet is a multimap of DBCs under the names that they are deposited with.
A multimap holds several values under a key, but a wallet is read as a map from names to DBCs, in which a
later entry with a name replaces an earlier one. The balance of a wallet is the sum over that map, and what
is spent is found and removed through it.
-/

namespace SafeNetwork

open Std Crdt Runs OrderedMap MultimapScheme

/-- What wallets use of `sn_dbc`, of `rmp_serde` and of the files API. -/
structure WalletApiScheme extends MultimapScheme where
  wallet : WalletScheme
  FilesError : Type
  publicKey : wallet.Dbc → wallet.PublicKey
  isBearer : wallet.Dbc → Bool
  /-- `Dbc::to_bearer` with the secret key of the owner. -/
  toBearer : wallet.Dbc → wallet.SecretKey → Except wallet.DbcError wallet.Dbc
  /-- `Dbc::verify` with the secret key of its owner base and the known section keys. -/
  verifyDbc : wallet.Dbc → Except wallet.DbcError Unit
  /-- The first eight hexadecimal digits of `Dbc::hash`. -/
  shortHash : wallet.Dbc → String
  /-- `rmp_serde::to_vec_named` of a DBC. -/
  encodeDbc : wallet.Dbc → List UInt8
  /-- `rmp_serde::from_slice` of a DBC. -/
  decodeDbc : List UInt8 → Option wallet.Dbc
  decodeDbc_encodeDbc : ∀ dbc, decodeDbc (encodeDbc dbc) = some dbc
  /-- The url that `Safe::store_bytes` returns. -/
  storeBytes : List UInt8 → String
  /-- `Safe::fetch_data` of a url, with `SafeUrl::from_xorurl`. -/
  fetchData : String → Except FilesError (List UInt8)
  fetchData_storeBytes : ∀ bytes, fetchData (storeBytes bytes) = .ok bytes

inductive WalletError (A : WalletApiScheme) where
  | dbcDepositError (text : String)
  /-- `Error::DbcDepositInvalidSecretKey`, or another error of `sn_dbc`. -/
  | dbc (error : A.wallet.DbcError)
  | invalidInput (text : String)
  | multimap (error : MultimapError A.toMultimapScheme)
  | files (error : A.FilesError)
  | utf8
  | contentError (text : String)
  | transfers (error : TransfersError)
  | panic (panic : Panic)
  /-- `Error::DbcReissueError`, or another error while reissuing on the network. -/
  | dbcReissueError (text : String)

namespace WalletApiScheme

variable {A : WalletApiScheme}

abbrev Dbc (A : WalletApiScheme) : Type := A.wallet.Dbc

abbrev WalletSpendableDbcs (A : WalletApiScheme) : Type := ExtTreeMap String (A.Dbc × A.Hash)

/-! ## Depositing -/

/-- The key and the value of a DBC in a wallet: its name and where it is stored. -/
def dbcEntry (spendableName : String) (dbc : A.Dbc) : MultimapKeyValue :=
  (intoBytes spendableName, intoBytes (A.storeBytes (A.encodeDbc dbc)))

/-- `Safe::insert_dbc_into_wallet` — the register of the wallet after it. -/
def insertDbcIntoWallet (keypair : A.Keypair) (register : Register A.toRegisterScheme) (dbc : A.Dbc)
    (spendableName : String) : Except (WalletError A) (Register A.toRegisterScheme) :=
  if !A.isBearer dbc then
    .error (.invalidInput ("Only bearer DBC's are supported at this point by the wallet. " ++
      "Please deposit a bearer DBC's."))
  else
    match multimapInsert keypair register (dbcEntry spendableName dbc) ∅ with
    | .error error => .error (.multimap error)
    | .ok (_, register) => .ok register

/-- The DBC that `wallet_deposit` deposits, a bearer one. -/
def dbcToDeposit (dbc : A.Dbc) (secretKey : Option A.wallet.SecretKey) : Except (WalletError A) A.Dbc :=
  if A.isBearer dbc then
    if secretKey.isSome then
      .error (.dbcDepositError "A secret key should not be supplied when depositing a bearer DBC")
    else .ok dbc
  else
    match secretKey with
    | some secretKey => (A.toBearer dbc secretKey).mapError .dbc
    | none => .error (.dbcDepositError "A secret key must be provided to deposit an owned DBC")

def depositName (spendableName : Option String) (dbc : A.Dbc) : String :=
  spendableName.getD ("dbc-" ++ A.shortHash dbc)

/-- `Safe::wallet_deposit` — the name and the amount, and the register of the wallet after it. -/
def walletDeposit (keypair : A.Keypair) (register : Register A.toRegisterScheme)
    (spendableName : Option String) (dbc : A.Dbc) (secretKey : Option A.wallet.SecretKey) :
    Except (WalletError A) ((String × Token) × Register A.toRegisterScheme) := do
  let dbcToDeposit ← dbcToDeposit dbc secretKey
  (A.verifyDbc dbcToDeposit).mapError .dbc
  let spendableName := depositName spendableName dbcToDeposit
  let amount ← (A.wallet.revealedAmountBearer dbcToDeposit).mapError .dbc
  let register ← insertDbcIntoWallet keypair register dbcToDeposit spendableName
  return ((spendableName, ⟨A.wallet.value amount⟩), register)

/-! ## Reading a wallet -/

/-- One entry of the loop of `fetch_wallet`. -/
def addSpendable (balances : A.WalletSpendableDbcs) (entry : A.Hash × MultimapKeyValue) :
    Except (WalletError A) A.WalletSpendableDbcs :=
  match fromUtf8 entry.2.2 with
  | none => .error .utf8
  | some xorurl =>
    match A.fetchData xorurl with
    | .error error => .error (.files error)
    | .ok dbcBytes =>
      match A.decodeDbc dbcBytes with
      -- an entry that cannot be deserialised is ignored
      | none => .ok balances
      | some dbc =>
        match fromUtf8 entry.2.1 with
        | none => .error .utf8
        | some spendableName => .ok (balances.insert spendableName (dbc, entry.1))

def fetchWallet (register : Register A.toRegisterScheme) :
    Except (WalletError A) A.WalletSpendableDbcs :=
  match fetchMultimap register with
  | .error _ => .error (.contentError "Failed to read balances from wallet")
  | .ok entries => entries.foldlM addSpendable ∅

/-- One DBC of the loop of `wallet_balance`. -/
def addBalance (totalBalance : Token) (spendable : String × A.Dbc × A.Hash) :
    Except (WalletError A) Token :=
  match A.wallet.revealedAmountBearer spendable.2.1 with
  | .error _ => .ok totalBalance
  | .ok amount =>
    match totalBalance.checkedAdd ⟨A.wallet.value amount⟩ with
    | none => .error (.contentError ("Failed to calculate total balance due to overflow when adding " ++
        A.wallet.tokenText ⟨A.wallet.value amount⟩ ++ " to " ++ A.wallet.tokenText totalBalance))
    | some newTotalBalance => .ok newTotalBalance

def walletBalance (register : Register A.toRegisterScheme) : Except (WalletError A) Token := do
  let balances ← fetchWallet register
  balances.toList.foldlM addBalance .zero

/-! ## Reissuing -/

def entryHashes (inputDbcKeys : List A.wallet.PublicKey) (spendable : A.WalletSpendableDbcs) :
    ExtTreeSet A.Hash :=
  .ofList ((spendable.toList.filter fun entry => A.publicKey entry.2.1 ∈ inputDbcKeys).map fun entry =>
    entry.2.2)

/-- What a reissue is asked for, and what comes from the network. -/
structure Reissue (A : WalletApiScheme) where
  outputsOwners : List (Token × A.wallet.OwnerOnce)
  rng : A.wallet.Rng
  fees : A.Dbc → A.wallet.FeeAnswer
  /-- What `reissue_dbcs` returns: the outputs and the change. -/
  reissued : Except (WalletError A) (List A.Dbc × Option A.Dbc)

/-- What a reissue returns, and what it has done to the wallet. -/
structure ReissueOutcome (A : WalletApiScheme) where
  result : Except (WalletError A) (List A.Dbc)
  register : Register A.toRegisterScheme
  deposited : Option A.Dbc
  removed : List A.wallet.PublicKey

def changeName (dbc : A.Dbc) : String := "change-dbc-" ++ A.shortHash dbc

def depositChange (keypair : A.Keypair) (register : Register A.toRegisterScheme) :
    Option A.Dbc → Except (WalletError A) (Register A.toRegisterScheme)
  | none => .ok register
  | some changeDbc => insertDbcIntoWallet keypair register changeDbc (changeName changeDbc)

/-- `Safe::wallet_reissue_many`, once the amounts have been parsed. -/
def walletReissueMany (keypair : A.Keypair) (register : Register A.toRegisterScheme) (reissue : Reissue A) :
    ReissueOutcome A :=
  match fetchWallet register with
  | .error error => ⟨.error error, register, none, []⟩
  | .ok spendableDbcs =>
    let dbcs := spendableDbcs.toList.map fun entry => (entry.2.1, reissue.fees entry.2.1)
    match selectInputs reissue.rng dbcs reissue.outputsOwners with
    | .error panic => ⟨.error (.panic panic), register, none, []⟩
    | .ok (.error error) => ⟨.error (.transfers error), register, none, []⟩
    | .ok (.ok (inputDbcsToSpend, _)) =>
      let inputDbcKeys := inputDbcsToSpend.map A.publicKey
      match reissue.reissued with
      | .error error => ⟨.error error, register, none, []⟩
      | .ok ([], _) =>
        ⟨.error (.dbcReissueError ("Unexpectedly failed to generate output DBC. " ++
          "No balance were removed from the wallet.")), register, none, []⟩
      | .ok (outputDbcs, changeDbc) =>
        match depositChange keypair register changeDbc with
        | .error error => ⟨.error error, register, none, []⟩
        | .ok deposited =>
          -- an error from here on leaves the change in the wallet together with the inputs
          match multimapRemove keypair deposited (entryHashes inputDbcKeys spendableDbcs) with
          | .error error => ⟨.error (.multimap error), deposited, changeDbc, []⟩
          | .ok (_, removed) => ⟨.ok outputDbcs, removed, changeDbc, inputDbcKeys⟩

/-! ## What is deposited and not removed -/

structure WalletState (A : WalletApiScheme) where
  register : Register A.toRegisterScheme
  /-- The DBCs deposited and not removed, with their names; no function reads them. -/
  deposited : List (String × A.Dbc)
  everDeposited : List A.Dbc

inductive WalletCall (A : WalletApiScheme) where
  | deposit (keypair : A.Keypair) (spendableName : Option String) (dbc : A.Dbc)
    (secretKey : Option A.wallet.SecretKey)
  | reissue (keypair : A.Keypair) (reissue : Reissue A)

namespace WalletState

def new (authority : User A.UserKey) (name : XorName) (tag : UInt64) (policy : Policy A.toRegisterScheme) :
    WalletState A :=
  ⟨.new authority name tag policy, [], []⟩

def deposit (state : WalletState A) (register : Register A.toRegisterScheme) (name : String) (dbc : A.Dbc) :
    WalletState A :=
  ⟨register, state.deposited ++ [(name, dbc)], state.everDeposited ++ [dbc]⟩

def step (state : WalletState A) : WalletCall A → WalletState A
  | .deposit keypair spendableName dbc secretKey =>
    match dbcToDeposit dbc secretKey, walletDeposit keypair state.register spendableName dbc secretKey with
    | .ok bearer, .ok (_, register) => state.deposit register (depositName spendableName bearer) bearer
    | _, _ => state
  | .reissue keypair reissue =>
    let outcome := walletReissueMany keypair state.register reissue
    ⟨outcome.register,
      state.deposited.filter (fun deposit => A.publicKey deposit.2 ∉ outcome.removed) ++
        outcome.deposited.toList.map (fun change => (changeName change, change)),
      state.everDeposited ++ outcome.deposited.toList⟩

def total (state : WalletState A) : Nat := (state.deposited.map fun deposit => A.wallet.balance deposit.2).sum

/-- A DBC has never been deposited, the wallet has none under its name, and its amount fits. -/
structure New (state : WalletState A) (name : String) (dbc : A.Dbc) : Prop where
  distinct : dbc ∉ state.everDeposited
  unnamed : name ∉ state.deposited.map Prod.fst
  fits : state.total + A.wallet.balance dbc < 2 ^ 64

def DepositsNew (state : WalletState A) : WalletCall A → Prop
  | .deposit _ spendableName dbc secretKey =>
    ∀ bearer, dbcToDeposit dbc secretKey = .ok bearer → state.New (depositName spendableName bearer) bearer
  | .reissue _ reissue =>
    ∀ outputs change, reissue.reissued = .ok (outputs, some change) → state.New (changeName change) change

end WalletState

/-! ## Entries of DBCs -/

variable {register : Register A.toRegisterScheme} {name : String} {dbc : A.Dbc} {keypair : A.Keypair}
  {state : WalletState A}

def liveEntry (deposit : String × A.Dbc) : A.Hash × MultimapKeyValue :=
  (A.registers.hash ⟨∅, A.toVecNamed (dbcEntry deposit.1 deposit.2)⟩, dbcEntry deposit.1 deposit.2)

def spendable (deposit : String × A.Dbc) : String × A.Dbc × A.Hash :=
  (deposit.1, deposit.2, (liveEntry deposit).1)

theorem intoBytes_injective : Function.Injective intoBytes := by
  intro left right same
  have read := congrArg fromUtf8 same
  rw [fromUtf8_intoBytes, fromUtf8_intoBytes] at read
  exact Option.some.inj read

theorem storeBytes_encodeDbc_injective : Function.Injective fun dbc : A.Dbc => A.storeBytes (A.encodeDbc dbc) := by
  intro left right same
  have fetched := congrArg A.fetchData same
  simp only [A.fetchData_storeBytes] at fetched
  have decoded := congrArg A.decodeDbc (Except.ok.inj fetched)
  rw [A.decodeDbc_encodeDbc, A.decodeDbc_encodeDbc] at decoded
  exact Option.some.inj decoded

theorem dbcEntry_inj {other : String} {otherDbc : A.Dbc} :
    dbcEntry name dbc = dbcEntry other otherDbc ↔ name = other ∧ dbc = otherDbc := by
  rw [dbcEntry, dbcEntry, Prod.mk.injEq, intoBytes_injective.eq_iff, intoBytes_injective.eq_iff,
    storeBytes_encodeDbc_injective.eq_iff]

theorem liveEntry_fst_injective : Function.Injective fun deposit : String × A.Dbc => (liveEntry deposit).1 := by
  intro left right same
  have nodes := A.registers.hash_injective same
  rw [Node.mk.injEq, toVecNamed_injective.eq_iff, dbcEntry_inj] at nodes
  exact Prod.ext nodes.2.1 nodes.2.2

theorem liveEntry_injective : Function.Injective (liveEntry (A := A)) :=
  fun _ _ same => liveEntry_fst_injective (congrArg Prod.fst same)

theorem addSpendable_dbcEntry (balances : A.WalletSpendableDbcs) (hash : A.Hash) :
    addSpendable balances (hash, dbcEntry name dbc) = .ok (balances.insert name (dbc, hash)) := by
  simp only [addSpendable, dbcEntry, fromUtf8_intoBytes, A.fetchData_storeBytes, A.decodeDbc_encodeDbc]

theorem foldlM_addSpendable (deposits : List (String × A.Dbc)) (balances : A.WalletSpendableDbcs) :
    (deposits.map liveEntry).foldlM addSpendable balances = .ok (balances.insertMany (deposits.map spendable)) := by
  induction deposits generalizing balances with
  | nil =>
    rw [List.map_nil, List.map_nil, ExtTreeMap.insertMany_nil]
    rfl
  | cons deposit rest ih =>
    rw [List.map_cons, List.map_cons, List.foldlM_cons, ExtTreeMap.insertMany_cons, liveEntry,
      addSpendable_dbcEntry]
    exact ih _

theorem foldlM_addBalance (spendables : List (String × A.Dbc × A.Hash)) (start : Token)
    (fits : start.nano.toNat + (spendables.map fun entry => A.wallet.balance entry.2.1).sum < 2 ^ 64) :
    ∃ total, spendables.foldlM addBalance start = .ok total ∧
      total.nano.toNat = start.nano.toNat + (spendables.map fun entry => A.wallet.balance entry.2.1).sum := by
  induction spendables generalizing start with
  | nil => exact ⟨start, rfl, by simp⟩
  | cons entry rest ih =>
    rw [List.map_cons, List.sum_cons] at fits ⊢
    cases revealed : A.wallet.revealedAmountBearer entry.2.1 with
    | error error =>
      have nothing : A.wallet.balance entry.2.1 = 0 := by rw [WalletScheme.balance, revealed]
      have ignored : addBalance start entry = .ok start := by rw [addBalance, revealed]
      rw [nothing, Nat.zero_add] at fits ⊢
      obtain ⟨total, added, sum⟩ := ih start fits
      exact ⟨total, by rw [List.foldlM_cons, ignored]; exact added, sum⟩
    | ok amount =>
      have worth : A.wallet.balance entry.2.1 = (A.wallet.value amount).toNat := by
        rw [WalletScheme.balance, revealed]
      rw [worth] at fits ⊢
      have inRange : start.nano.toNat + (A.wallet.value amount).toNat < 2 ^ 64 := by omega
      have exactly : (start.nano + A.wallet.value amount).toNat =
          start.nano.toNat + (A.wallet.value amount).toNat := by
        rw [UInt64.toNat_add, Nat.mod_eq_of_lt inRange]
      have counted : addBalance start entry = .ok ⟨start.nano + A.wallet.value amount⟩ := by
        simp only [addBalance, revealed, Token.checkedAdd, if_pos inRange]
      obtain ⟨total, added, sum⟩ := ih ⟨start.nano + A.wallet.value amount⟩ (by rw [exactly]; omega)
      refine ⟨total, by rw [List.foldlM_cons, counted]; exact added, ?_⟩
      rw [sum, exactly, Nat.add_assoc]

theorem insertDbcIntoWallet_eq_ok {after : Register A.toRegisterScheme}
    (inserted : insertDbcIntoWallet keypair register dbc name = .ok after) :
    ∃ hash, multimapInsert keypair register (dbcEntry name dbc) ∅ = .ok (hash, after) := by
  rw [insertDbcIntoWallet] at inserted
  split at inserted
  · cases inserted
  · split at inserted
    · cases inserted
    · rename_i written
      obtain rfl := Except.ok.inj inserted
      exact ⟨_, written⟩

/-! ## The books of a wallet -/

/-- The multimap of a wallet has the DBCs deposited and not removed, under different names. -/
structure Booked (state : WalletState A) : Prop where
  ofMultimap : OfMultimap state.register
  entries : ∀ multimap, fetchMultimap state.register = .ok multimap →
    ∀ entry, entry ∈ multimap ↔ ∃ deposit ∈ state.deposited, entry = liveEntry deposit
  names : (state.deposited.map Prod.fst).Nodup
  written : ∀ {hash : A.Hash} {node : Node A.Hash Entry} {keyValue : MultimapKeyValue},
    (A.registers.visible state.register.crdt.data)[hash]? = some node → node.value = A.toVecNamed keyValue →
      ∃ name, ∃ dbc ∈ state.everDeposited, keyValue = dbcEntry name dbc
  fits : state.total < 2 ^ 64

namespace Booked

theorem new (authority : User A.UserKey) (name : XorName) (tag : UInt64) (policy : Policy A.toRegisterScheme) :
    Booked (.new authority name tag policy) where
  ofMultimap := ofMultimap_new authority name tag policy
  entries multimap fetched entry := by
    obtain rfl := Except.ok.inj ((fetchMultimap_new authority name tag policy).symm.trans fetched)
    simp [WalletState.new]
  names := List.nodup_nil
  written {hash node keyValue} found := by
    have empty : A.registers.visible A.registers.new = ∅ := A.registers.visible_new
    rw [WalletState.new, Register.new, RegisterCrdt.new, empty] at found
    simp at found
  fits := by simp [WalletState.total, WalletState.new]

variable (booked : Booked state)
include booked

theorem not_superseded (distinct : dbc ∉ state.everDeposited) :
    ¬ Superseded state.register (liveEntry (name, dbc)).1 := by
  intro superseded
  have visible := booked.ofMultimap.grown.visible_of_superseded superseded
  obtain ⟨other, otherDbc, mem, same⟩ :=
    booked.written (booked.ofMultimap.grown.getElem?_hash visible) rfl
  obtain ⟨-, rfl⟩ : _ ∧ dbc = otherDbc := dbcEntry_inj.mp same
  exact distinct mem

theorem entries_insert (isNew : state.New name dbc) {before after : A.Multimap}
    (fetched : fetchMultimap state.register = .ok before) (members : ∀ hash keyValue, (hash, keyValue) ∈ after ↔
      hash = (liveEntry (name, dbc)).1 ∧ A.toVecNamed (dbcEntry name dbc) = A.toVecNamed keyValue ∧
          ¬ Superseded state.register hash ∨
        (hash, keyValue) ∈ before ∧ hash ∉ (∅ : ExtTreeSet A.Hash)) (entry : A.Hash × MultimapKeyValue) :
    entry ∈ after ↔ ∃ deposit ∈ state.deposited ++ [(name, dbc)], entry = liveEntry deposit := by
  obtain ⟨hash, keyValue⟩ := entry
  rw [members, booked.entries before fetched]
  constructor
  · rintro (⟨rfl, same, -⟩ | ⟨⟨deposit, mem, equal⟩, -⟩)
    · obtain rfl := toVecNamed_injective same
      exact ⟨(name, dbc), List.mem_append_right _ (List.mem_singleton.mpr rfl), rfl⟩
    · exact ⟨deposit, List.mem_append_left _ mem, equal⟩
  · rintro ⟨deposit, mem, equal⟩
    rcases List.mem_append.mp mem with old | last
    · exact Or.inr ⟨⟨deposit, old, equal⟩, by simp⟩
    · obtain rfl := List.mem_singleton.mp last
      obtain ⟨rfl, rfl⟩ := Prod.mk.inj equal
      exact Or.inl ⟨rfl, rfl, booked.not_superseded isNew.distinct⟩

theorem insert (isNew : state.New name dbc)
    (inserted : insertDbcIntoWallet keypair state.register dbc name = .ok register) :
    Booked (state.deposit register name dbc) := by
  obtain ⟨hash, written⟩ := insertDbcIntoWallet_eq_ok inserted
  obtain ⟨-, rfl⟩ := writeEntry_eq_ok written
  have known : ∀ child ∈ (∅ : ExtTreeSet A.Hash), Known state.register child := by simp
  have encoded : A.Written (A.toVecNamed (dbcEntry name dbc)) := Or.inr ⟨_, rfl⟩
  obtain ⟨before, multimap, fetched, fetchedAfter, members⟩ := booked.ofMultimap.fetch_grow known encoded
  refine ⟨booked.ofMultimap.grow known encoded, fun other again => ?_, ?_, ?_, ?_⟩
  · obtain rfl := Except.ok.inj (fetchedAfter.symm.trans again)
    exact booked.entries_insert isNew fetched members
  · rw [WalletState.deposit, List.map_append]
    exact booked.names.append (List.nodup_singleton _) (by simpa using isNew.unnamed)
  · intro hash node keyValue found encodes
    rcases booked.ofMultimap.eq_or_visible known found with rfl | old
    · exact ⟨name, dbc, List.mem_append_right _ (List.mem_singleton.mpr rfl),
        (toVecNamed_injective encodes).symm⟩
    · obtain ⟨other, otherDbc, mem, same⟩ := booked.written old encodes
      exact ⟨other, otherDbc, List.mem_append_left _ mem, same⟩
  · have fits := isNew.fits
    rwa [WalletState.total, WalletState.deposit, List.map_append, List.sum_append, List.map_singleton,
      List.sum_singleton]

theorem remove {toRemove : ExtTreeSet A.Hash} {hash : A.Hash}
    (known : ∀ child ∈ toRemove, Known state.register child)
    (removed : multimapRemove keypair state.register toRemove = .ok (hash, register))
    {deposited : List (String × A.Dbc)} (among : deposited.Sublist state.deposited)
    (kept : ∀ deposit ∈ state.deposited, deposit ∈ deposited ↔ (liveEntry deposit).1 ∉ toRemove) :
    Booked ⟨register, deposited, state.everDeposited⟩ := by
  obtain ⟨before, multimap, fetched, fetchedAfter, exactly⟩ := booked.ofMultimap.removed known removed
  obtain ⟨-, rfl⟩ := writeEntry_eq_ok removed
  refine ⟨booked.ofMultimap.grow known (Or.inl rfl), fun other again entry => ?_, ?_, ?_, ?_⟩
  · obtain rfl := Except.ok.inj (fetchedAfter.symm.trans again)
    rw [exactly, booked.entries before fetched]
    constructor
    · rintro ⟨⟨deposit, mem, rfl⟩, outside⟩
      exact ⟨deposit, (kept deposit mem).mpr outside, rfl⟩
    · rintro ⟨deposit, mem, rfl⟩
      exact ⟨⟨deposit, among.subset mem, rfl⟩, (kept deposit (among.subset mem)).mp mem⟩
  · exact booked.names.sublist (among.map _)
  · intro hash node keyValue found encodes
    rcases booked.ofMultimap.eq_or_visible known found with rfl | old
    · exact absurd encodes.symm (toVecNamed_ne_mark keyValue)
    · exact booked.written old encodes
  · exact Nat.lt_of_le_of_lt ((among.map _).sum_le_sum fun _ _ => Nat.zero_le _) booked.fits

theorem fetchWallet : ∃ spendables, fetchWallet state.register = .ok spendables ∧
      ∀ (name : String) (value : A.Dbc × A.Hash),
        spendables[name]? = some value ↔ (name, value) ∈ state.deposited.map spendable := by
  obtain ⟨multimap, fetched, -⟩ := booked.ofMultimap.fetch
  have entries := booked.entries multimap fetched
  -- the entries in the order of the multimap, which is that of their hashes
  obtain ⟨deposits, rfl⟩ : multimap ∈ Set.range (List.map liveEntry) := by
    rw [Set.range_list_map]
    intro entry mem
    obtain ⟨deposit, -, rfl⟩ := (entries entry).mp mem
    exact ⟨deposit, rfl⟩
  have same (deposit : String × A.Dbc) : deposit ∈ deposits ↔ deposit ∈ state.deposited := by
    rw [← List.mem_map_of_injective liveEntry_injective, entries]
    constructor
    · rintro ⟨other, mem, equal⟩
      rwa [liveEntry_injective equal]
    · exact fun mem => ⟨deposit, mem, rfl⟩
  refine ⟨.ofList (deposits.map spendable), ?_, fun name value => ?_⟩
  · rw [WalletApiScheme.fetchWallet, fetched, ExtTreeMap.ofList_eq_insertMany_empty]
    exact foldlM_addSpendable deposits ∅
  · have listed : (name, value) ∈ deposits.map spendable ↔ (name, value) ∈ state.deposited.map spendable := by
      simp only [List.mem_map, same]
    refine ⟨fun found => listed.mp (mem_of_getElem?_ofList found), fun mem => ?_⟩
    refine getElem?_ofList_of_unique (fun other otherMem => ?_) (listed.mpr mem)
    obtain ⟨deposit, inside, equal⟩ := List.mem_map.mp mem
    obtain ⟨otherDeposit, otherInside, otherEqual⟩ := List.mem_map.mp otherMem
    obtain ⟨rfl, rfl⟩ := Prod.mk.inj equal
    obtain ⟨names, rfl⟩ := Prod.mk.inj otherEqual
    rw [List.inj_on_of_nodup_map booked.names ((same _).mp otherInside) inside names]

theorem walletBalance :
    ∃ total, walletBalance state.register = .ok total ∧ total.nano.toNat = state.total := by
  obtain ⟨spendables, fetched, holds⟩ := booked.fetchWallet
  have distinct : ((state.deposited.map spendable).map Prod.fst).Nodup := by
    rw [List.map_map]
    exact booked.names
  have listed := toList_perm distinct holds
  have sums : (spendables.toList.map fun entry => A.wallet.balance entry.2.1).sum = state.total := by
    rw [(listed.map _).sum_eq, List.map_map, WalletState.total]
    rfl
  obtain ⟨total, added, sum⟩ := foldlM_addBalance spendables.toList .zero (by
    rw [sums]
    exact (Nat.zero_add _).symm ▸ booked.fits)
  refine ⟨total, ?_, ?_⟩
  · rw [WalletApiScheme.walletBalance, fetched]
    exact added
  · rw [sum, sums]
    exact Nat.zero_add _

end Booked

/-! ## Sequences of calls -/

theorem walletDeposit_eq_ok {spendableName : Option String} {secretKey : Option A.wallet.SecretKey}
    {returned : String × Token}
    (deposited : walletDeposit keypair state.register spendableName dbc secretKey = .ok (returned, register)) :
    ∃ bearer, dbcToDeposit dbc secretKey = .ok bearer ∧
      insertDbcIntoWallet keypair state.register bearer (depositName spendableName bearer) = .ok register := by
  rw [walletDeposit, bind_eq_ok] at deposited
  obtain ⟨bearer, isBearer, deposited⟩ := deposited
  rw [bind_eq_ok] at deposited
  obtain ⟨-, -, deposited⟩ := deposited
  rw [bind_eq_ok] at deposited
  obtain ⟨amount, -, deposited⟩ := deposited
  rw [bind_eq_ok] at deposited
  obtain ⟨after, inserted, same⟩ := deposited
  obtain ⟨-, rfl⟩ := Prod.mk.inj (Except.ok.inj same)
  exact ⟨bearer, isBearer, inserted⟩

inductive Reissued (keypair : A.Keypair) (register : Register A.toRegisterScheme) (reissue : Reissue A) :
    ReissueOutcome A → Prop where
  | failed {error : WalletError A} : Reissued keypair register reissue ⟨.error error, register, none, []⟩
  | deposited {outputs : List A.Dbc} {change : Option A.Dbc} {after : Register A.toRegisterScheme}
    {error : WalletError A} (reissued : reissue.reissued = .ok (outputs, change))
    (deposits : depositChange keypair register change = .ok after) :
    Reissued keypair register reissue ⟨.error error, after, change, []⟩
  /-- The change is deposited, and the entries of the inputs are removed. -/
  | removed {spendables : A.WalletSpendableDbcs} {keys : List A.wallet.PublicKey} {outputs : List A.Dbc}
    {change : Option A.Dbc} {after final : Register A.toRegisterScheme} {hash : A.Hash}
    (fetched : fetchWallet register = .ok spendables) (reissued : reissue.reissued = .ok (outputs, change))
    (deposits : depositChange keypair register change = .ok after)
    (removes : multimapRemove keypair after (entryHashes keys spendables) = .ok (hash, final)) :
    Reissued keypair register reissue ⟨.ok outputs, final, change, keys⟩

theorem walletReissueMany_reissued (keypair : A.Keypair) (register : Register A.toRegisterScheme)
    (reissue : Reissue A) : Reissued keypair register reissue (walletReissueMany keypair register reissue) := by
  rw [walletReissueMany]
  split
  · exact .failed
  · rename_i fetched
    dsimp only
    split
    · exact .failed
    · exact .failed
    · split
      · exact .failed
      · exact .failed
      · rename_i reissued
        split
        · exact .failed
        · rename_i deposits
          split
          · exact .deposited reissued deposits
          · rename_i removes
            exact .removed fetched reissued deposits removes

namespace Booked

theorem depositChange (booked : Booked state) {change : Option A.Dbc}
    (isNew : ∀ dbc, change = some dbc → state.New (changeName dbc) dbc)
    (deposits : depositChange keypair state.register change = .ok register) :
    Booked ⟨register, state.deposited ++ change.toList.map (fun change => (changeName change, change)),
      state.everDeposited ++ change.toList⟩ := by
  cases change with
  | none =>
    obtain rfl := Except.ok.inj deposits
    simpa using booked
  | some dbc => exact booked.insert (isNew dbc rfl) deposits

variable {spendables : A.WalletSpendableDbcs} {keys : List A.wallet.PublicKey} {deposit : String × A.Dbc}

variable (booked : Booked state)
include booked

theorem mem_entryHashes (fetched : WalletApiScheme.fetchWallet state.register = .ok spendables) {hash : A.Hash} : hash ∈ entryHashes keys spendables ↔
      ∃ deposit ∈ state.deposited, A.publicKey deposit.2 ∈ keys ∧ (liveEntry deposit).1 = hash := by
  obtain ⟨same, fetch, holds⟩ := booked.fetchWallet
  obtain rfl := Except.ok.inj (fetch.symm.trans fetched)
  rw [entryHashes, ExtTreeSet.mem_ofList, List.contains_iff_mem, List.mem_map]
  constructor
  · rintro ⟨⟨name, dbc, found⟩, mem, rfl⟩
    obtain ⟨listed, spent⟩ := List.mem_filter.mp mem
    rw [ExtTreeMap.mem_toList_iff_getElem?_eq_some, holds, List.mem_map] at listed
    obtain ⟨deposit, inside, equal⟩ := listed
    obtain ⟨rfl, rest⟩ := Prod.mk.inj equal
    obtain ⟨rfl, rfl⟩ := Prod.mk.inj rest
    exact ⟨deposit, inside, of_decide_eq_true spent, rfl⟩
  · rintro ⟨deposit, inside, spent, rfl⟩
    refine ⟨spendable deposit, List.mem_filter.mpr ⟨?_, decide_eq_true spent⟩, rfl⟩
    rw [spendable, ExtTreeMap.mem_toList_iff_getElem?_eq_some, holds]
    exact List.mem_map.mpr ⟨deposit, inside, rfl⟩

theorem liveEntry_mem_entryHashes (fetched : WalletApiScheme.fetchWallet state.register = .ok spendables) :
    (liveEntry deposit).1 ∈ entryHashes keys spendables ↔
      deposit ∈ state.deposited ∧ A.publicKey deposit.2 ∈ keys := by
  rw [booked.mem_entryHashes fetched]
  constructor
  · rintro ⟨other, inside, spent, same⟩
    obtain rfl := liveEntry_fst_injective same
    exact ⟨inside, spent⟩
  · rintro ⟨inside, spent⟩
    exact ⟨deposit, inside, spent, rfl⟩

theorem known_liveEntry (mem : deposit ∈ state.deposited) :
    Known state.register (liveEntry deposit).1 := by
  obtain ⟨multimap, fetched, -⟩ := booked.ofMultimap.fetch
  exact (booked.ofMultimap.known_of_mem fetched
    ((booked.entries multimap fetched _).mpr ⟨deposit, mem, rfl⟩)).1

theorem reissue {reissue : Reissue A}
    (isNew : state.DepositsNew (.reissue keypair reissue)) : Booked (state.step (.reissue keypair reissue)) := by
  have outcome := walletReissueMany_reissued keypair state.register reissue
  rw [WalletState.step]
  generalize walletReissueMany keypair state.register reissue = result at outcome ⊢
  cases outcome with
  | failed => simpa using booked
  | deposited reissued deposits =>
    have after := booked.depositChange (fun dbc same => isNew _ dbc (same ▸ reissued)) deposits
    simpa using after
  | @removed spendables keys outputs change after final hash fetched reissued deposits removes =>
    have between := booked.depositChange (fun dbc same => isNew _ dbc (same ▸ reissued)) deposits
    refine between.remove ?_ removes (List.filter_sublist.append (List.Sublist.refl _)) ?_
    · intro child named
      obtain ⟨deposit, inside, -, rfl⟩ := (booked.mem_entryHashes fetched).mp named
      exact between.known_liveEntry (List.mem_append_left _ inside)
    · intro deposit mem
      have apart : deposit ∈ state.deposited →
          deposit ∉ change.toList.map fun change => (changeName change, change) :=
        fun old => List.disjoint_of_nodup_append (List.Nodup.of_map _ between.names) old
      rw [booked.liveEntry_mem_entryHashes fetched, List.mem_append, List.mem_filter, decide_eq_true_eq]
      rcases List.mem_append.mp mem with old | last
      · simp [old, apart old]
      · have outside : deposit ∉ state.deposited := fun old => apart old last
        simp [last, outside]

theorem step {call : WalletCall A} (isNew : state.DepositsNew call) :
    Booked (state.step call) := by
  cases call with
  | deposit keypair spendableName dbc secretKey =>
    rw [WalletState.step]
    split
    · rename_i bearer _ register isBearer deposited
      obtain ⟨same, isSame, inserted⟩ := walletDeposit_eq_ok deposited
      obtain rfl := Except.ok.inj (isSame.symm.trans isBearer)
      exact booked.insert (isNew same isBearer) inserted
    · exact booked
  | reissue keypair reissue => exact booked.reissue isNew

end Booked

/-- The balance of a wallet is the sum of the amounts of all DBCs deposited and not removed, after any calls
that deposit new DBCs under names that the wallet has no DBC for at the time. -/
theorem walletBalance_run (authority : User A.UserKey) (name : XorName) (tag : UInt64)
    (policy : Policy A.toRegisterScheme) (calls : List (WalletCall A))
    (areNew : Throughout WalletState.step WalletState.DepositsNew (.new authority name tag policy) calls) :
    ∃ balance, walletBalance (run WalletState.step (.new authority name tag policy) calls).register = .ok balance ∧
      balance.nano.toNat = (run WalletState.step (.new authority name tag policy) calls).total := by
  have booked := areNew.induction (Booked.new authority name tag policy) fun _ _ kept =>
    kept.step
  exact booked.walletBalance

/-! ## Two deposits -/

def sampleUrl (bytes : List UInt8) : String := .ofList (bytes.map fun byte => Char.ofNat byte.toNat)

theorem sampleUrl_bytes (bytes : List UInt8) :
    (sampleUrl bytes).toList.map (fun char => UInt8.ofNat char.toNat) = bytes := by
  rw [sampleUrl, String.toList_ofList, List.map_map, List.map_congr_left, List.map_id]
  intro byte _
  have valid : byte.toNat.isValidChar := Or.inl (Nat.lt_trans byte.toNat_lt (by decide))
  rw [Function.comp_apply, Char.toNat_ofNat, if_pos valid, UInt8.ofNat_toNat, id]

abbrev sampleWallets : WalletApiScheme where
  toMultimapScheme := sampleMultimaps
  wallet := sampleWallet
  FilesError := Unit
  publicKey dbc := dbc.1
  isBearer _ := true
  toBearer dbc _ := .ok dbc
  verifyDbc _ := .ok ()
  shortHash _ := "00000000"
  encodeDbc dbc := (Coding.nat.pair Coding.nat).encode (dbc.1, dbc.2.toNat)
  decodeDbc bytes :=
    ((Coding.nat.pair Coding.nat).decode bytes).map fun read => (read.1.1, .ofNat read.1.2)
  decodeDbc_encodeDbc dbc := by
    have read := (Coding.nat.pair Coding.nat).decode_encode (dbc.1, dbc.2.toNat) []
    rw [List.append_nil] at read
    simp [read]
  storeBytes := sampleUrl
  fetchData url := .ok (url.toList.map fun char => .ofNat char.toNat)
  fetchData_storeBytes bytes := by rw [sampleUrl_bytes]

def sampleDeposits (first second : String) : List (WalletCall sampleWallets) :=
  [.deposit (0 : Nat) (some first) ((1 : Nat), (5 : UInt64)) none,
    .deposit (0 : Nat) (some second) ((2 : Nat), (7 : UInt64)) none]

def sampleNewWallet : WalletState sampleWallets := .new (.key 0) sampleRegisterName 0 (samplePolicy 0)

def sampleWalletAfter (first second : String) : WalletState sampleWallets :=
  run WalletState.step sampleNewWallet (sampleDeposits first second)

theorem walletBalance_run_sampleDeposits :
    Throughout WalletState.step WalletState.DepositsNew sampleNewWallet (sampleDeposits "a" "b") ∧
      ∃ balance, walletBalance (sampleWalletAfter "a" "b").register = .ok balance ∧
        balance.nano.toNat = 12 := by
  have areNew : Throughout WalletState.step WalletState.DepositsNew sampleNewWallet
      (sampleDeposits "a" "b") := by
    refine ⟨fun bearer isBearer => ?_, fun bearer isBearer => ?_, trivial⟩
    · obtain rfl := Except.ok.inj isBearer
      exact ⟨by decide +kernel, by decide +kernel, by decide +kernel⟩
    · obtain rfl := Except.ok.inj isBearer
      exact ⟨by decide +kernel, by decide +kernel, by decide +kernel⟩
  obtain ⟨balance, got, worth⟩ := walletBalance_run (A := sampleWallets) (.key 0) sampleRegisterName 0
    (samplePolicy 0) (sampleDeposits "a" "b") areNew
  have twelve : (sampleWalletAfter "a" "b").total = 12 := by decide +kernel
  exact ⟨areNew, balance, got, worth.trans twelve⟩

/-- DBCs deposited under the same name count once. -/
theorem walletBalance_same_name :
    (sampleWalletAfter "a" "a").everDeposited.Nodup ∧ (sampleWalletAfter "a" "a").total = 12 ∧
      (walletBalance (sampleWalletAfter "a" "a").register).toOption = some ⟨7⟩ := by
  decide +kernel

end WalletApiScheme

end SafeNetwork
