import SafeNetwork.Api.Multimap
import SafeNetwork.Library.OrderedMap

/-!
# The name resolution system

`sn_api/src/app/nrs`: public names are associated to links in a multimap, under the name as the key.
Associating a name replaces the entries that it has, and removing it writes a tombstone over them. A name
that has been removed has no entries to replace, so associating it writes the same entry as when it was
associated first. Clients that write at the same time leave several links of a name; none is picked then.
-/

namespace SafeNetwork

open Std Crdt OrderedMap MultimapScheme

/-- What the name resolution system uses of `SafeUrl`. -/
structure NrsScheme extends MultimapScheme where
  Url : Type
  [decidableEqUrl : DecidableEq Url]
  [ordUrl : Ord Url]
  [transOrdUrl : TransOrd Url]
  [lawfulEqOrdUrl : LawfulEqOrd Url]
  fromUrl : String → Option Url
  urlToString : Url → String
  /-- Whether `validate_nrs_public_name` accepts a name. -/
  isPublicName : String → Bool
  /-- Whether a link lacks the version that `validate_nrs_url` requires. -/
  lacksVersion : Url → Bool

attribute [instance] NrsScheme.decidableEqUrl NrsScheme.ordUrl NrsScheme.transOrdUrl
  NrsScheme.lawfulEqOrdUrl

variable {N : NrsScheme}

/-- A public name with the link it is associated to. -/
@[ext]
structure Association (N : NrsScheme) where
  publicName : String
  link : N.Url
deriving DecidableEq

namespace Association

/-- By name, then by link. -/
instance : Ord (Association N) := ⟨compareLex (compareOn publicName) (compareOn link)⟩

instance : TransOrd (Association N) :=
  inferInstanceAs (TransCmp (compareLex (compareOn publicName) (compareOn link)))

instance : LawfulEqOrd (Association N) where
  compare_self :=
    (inferInstance : ReflCmp (compareLex (compareOn publicName) (compareOn link))).compare_self
  eq_of_compare := by
    intro left right same
    obtain ⟨names, links⟩ := compareLex_eq_eq.mp same
    exact Association.ext (Std.compare_eq_iff_eq.mp names) (Std.compare_eq_iff_eq.mp links)

end Association

abbrev NrsMap (N : NrsScheme) : Type := ExtTreeMap String N.Url

inductive NrsError (N : NrsScheme) where
  | invalidInput (publicName : String)
  /-- `Error::UnversionedContentError`. -/
  | unversionedContent
  | multimap (error : MultimapError N.toMultimapScheme)
  | netData
  | utf8
  | invalidUrl
  | conflictingNrsEntries (conflictingEntries : List (Association N)) (nrsMap : NrsMap N)
  | contentError

namespace NrsScheme

/-! ## Associating and removing names -/

def currentVersions (register : Register N.toRegisterScheme) (publicName : String) :
    Except (NrsError N) (ExtTreeSet N.Hash) :=
  match fetchMultimapValuesByKey register (intoBytes publicName) with
  | .error error => .error (.multimap error)
  | .ok entries => .ok (.ofList (entries.map Prod.fst))

def associationEntry (publicName : String) (link : N.Url) : MultimapKeyValue :=
  (intoBytes publicName, intoBytes (N.urlToString link))

/-- `Safe::nrs_associate` — the version of the returned url, and the register after the call. -/
def nrsAssociate (keypair : N.Keypair) (register : Register N.toRegisterScheme) (publicName : String)
    (link : N.Url) : Except (NrsError N) (N.Hash × Register N.toRegisterScheme) :=
  if !N.isPublicName publicName then .error (.invalidInput publicName)
  else if N.lacksVersion link then .error .unversionedContent
  else do
    let versions ← currentVersions register publicName
    (multimapInsert keypair register (associationEntry publicName link)
      versions).mapError .multimap

def nrsRemove (keypair : N.Keypair) (register : Register N.toRegisterScheme) (publicName : String) :
    Except (NrsError N) (N.Hash × Register N.toRegisterScheme) :=
  if !N.isPublicName publicName then .error (.invalidInput publicName)
  else do
    let versions ← currentVersions register publicName
    (multimapRemove keypair register versions).mapError .multimap

/-! ## Resolving names -/

def parseAssociation (keyValue : MultimapKeyValue) : Except (NrsError N) (Association N) :=
  match fromUtf8 keyValue.1 with
  | none => .error .utf8
  | some publicName =>
    match fromUtf8 keyValue.2 with
    | none => .error .utf8
    | some text =>
      match N.fromUrl text with
      | none => .error .invalidUrl
      | some link => .ok ⟨publicName, link⟩

def parseVersioned (entry : N.Hash × MultimapKeyValue) : Except (NrsError N) (N.Hash × Association N) := do
  let association ← parseAssociation entry.2
  return (entry.1, association)

def convertMultimapToNrsSet (multimap : N.Multimap) (publicName : String) (subnameVersion : Option N.Hash) :
    Except (NrsError N) (ExtTreeSet (Association N)) := do
  let versionedSet ← multimap.mapM parseVersioned
  match subnameVersion with
  | some version =>
    return .ofList ((versionedSet.filter fun entry =>
      !(entry.2.publicName = publicName ∧ entry.1 ≠ version)).map Prod.snd)
  | none => return .ofList (versionedSet.map Prod.snd)

/-- `get_nrs_map_from_set` — of several links of a name the last one stays. -/
def getNrsMapFromSet (set : ExtTreeSet (Association N)) : NrsMap N :=
  .ofList (set.toList.map fun association => (association.publicName, association.link))

def withVersion (register : Register N.toRegisterScheme) (multimap : N.Multimap) :
    Option N.Hash → Except (NrsError N) N.Multimap
  | none => .ok multimap
  | some version =>
    if multimap.any fun entry => entry.1 = version then .ok multimap
    else
      match fetchMultimapValueByHash register version with
      | .error error => .error (.multimap error)
      | .ok keyValue => .ok (multimap ++ [(version, keyValue)])

def nrsGetSubnamesMap (register : Register N.toRegisterScheme) (publicName : String)
    (version : Option N.Hash) : Except (NrsError N) (NrsMap N) :=
  match fetchMultimap register with
  | .error _ => .error .netData
  | .ok multimap => do
    let multimap ← withVersion register multimap version
    let subnamesSet ← convertMultimapToNrsSet multimap publicName version
    let nrsMap := getNrsMapFromSet subnamesSet
    if nrsMap.size ≠ subnamesSet.size then
      .error (.conflictingNrsEntries
        (subnamesSet.toList.filter fun association =>
          nrsMap[association.publicName]? ≠ some association.link) nrsMap)
    else .ok nrsMap

def publicNameContainsSubname (publicName : String) : Bool :=
  !(List.intercalate ['.'] (publicName.toList.splitOn '.').dropLast).isEmpty

/-- `NrsMap::get`. -/
def getLink (map : NrsMap N) (publicName : String) : Except (NrsError N) (Option N.Url) :=
  match map[publicName]? with
  | some link => .ok (some link)
  | none => if publicNameContainsSubname publicName then .error .contentError else .ok none

/-- The map that `nrs_get` goes on with: conflicts of other names are ignored. -/
def ignoreConflicts (publicName : String) : Except (NrsError N) (NrsMap N) → Except (NrsError N) (NrsMap N)
  | .error (.conflictingNrsEntries conflictingEntries map) =>
    if conflictingEntries.any fun association => association.publicName = publicName then
      .error (.conflictingNrsEntries conflictingEntries map)
    else .ok map
  | result => result

def nrsGet (register : Register N.toRegisterScheme) (publicName : String) (version : Option N.Hash) :
    Except (NrsError N) (Option N.Url × NrsMap N) := do
  let nrsMap ← ignoreConflicts publicName (nrsGetSubnamesMap register publicName version)
  let url ← getLink nrsMap publicName
  return (url, nrsMap)

/-! ## What a name resolves to -/

variable {register after : Register N.toRegisterScheme} {publicName : String} {link : N.Url}
  {keyValue : MultimapKeyValue} {association : Association N} {multimap : N.Multimap}
  {set : ExtTreeSet (Association N)} {keypair : N.Keypair} {hash : N.Hash}

def Parses (N : NrsScheme) (keyValue : MultimapKeyValue) : Prop :=
  ∃ association : Association N, parseAssociation keyValue = .ok association

theorem key_of_parseAssociation (parsed : parseAssociation keyValue = .ok association) :
    keyValue.1 = intoBytes association.publicName := by
  rw [parseAssociation] at parsed
  split at parsed
  · cases parsed
  · rename_i name read
    split at parsed
    · cases parsed
    · split at parsed
      · cases parsed
      · obtain rfl := Except.ok.inj parsed
        exact (intoBytes_of_fromUtf8 read).symm

theorem parseAssociation_associationEntry : parseAssociation (associationEntry publicName link) = .ok association ↔
      association.publicName = publicName ∧ N.fromUrl (N.urlToString link) = some association.link := by
  simp only [parseAssociation, associationEntry, fromUtf8_intoBytes]
  cases N.fromUrl (N.urlToString link) with
  | none => simp
  | some url =>
    rw [Except.ok.injEq, Association.ext_iff, eq_comm, Option.some.injEq]

theorem mapM_parseVersioned {parsed : List (N.Hash × Association N)}
    (mapped : multimap.mapM parseVersioned = .ok parsed) :
    (∀ entry ∈ multimap, N.Parses entry.2) ∧ ∀ hash association, (hash, association) ∈ parsed ↔
      ∃ keyValue, (hash, keyValue) ∈ multimap ∧ parseAssociation keyValue = .ok association := by
  induction multimap generalizing parsed with
  | nil =>
    obtain rfl := Except.ok.inj mapped
    simp
  | cons entry rest ih =>
    rw [List.mapM_cons, bind_eq_ok] at mapped
    obtain ⟨first, one, mapped⟩ := mapped
    rw [parseVersioned, bind_eq_ok] at one
    obtain ⟨association, one, same⟩ := one
    obtain rfl := Except.ok.inj same
    rw [bind_eq_ok] at mapped
    obtain ⟨others, more, same⟩ := mapped
    obtain rfl := Except.ok.inj same
    obtain ⟨parses, members⟩ := ih more
    refine ⟨List.forall_mem_cons.mpr ⟨⟨association, one⟩, parses⟩, fun hash other => ?_⟩
    obtain ⟨version, keyValue⟩ := entry
    simp only [List.mem_cons, members, Prod.mk.injEq, or_and_right, exists_or]
    refine or_congr_left ⟨?_, ?_⟩
    · rintro ⟨rfl, rfl⟩
      exact ⟨keyValue, ⟨rfl, rfl⟩, one⟩
    · rintro ⟨_, ⟨rfl, rfl⟩, again⟩
      exact ⟨rfl, Except.ok.inj (again.symm.trans one)⟩

theorem exists_mapM_parseVersioned (parses : ∀ entry ∈ multimap, N.Parses entry.2) : ∃ parsed, multimap.mapM parseVersioned = .ok parsed := by
  induction multimap with
  | nil => exact ⟨[], rfl⟩
  | cons entry rest ih =>
    obtain ⟨⟨association, one⟩, later⟩ := List.forall_mem_cons.mp parses
    obtain ⟨parsed, more⟩ := ih later
    refine ⟨(entry.1, association) :: parsed, ?_⟩
    rw [List.mapM_cons, parseVersioned, one, more]
    rfl

theorem mapM_parseVersioned_error {error : NrsError N}
    (failed : multimap.mapM parseVersioned = .error error) : error = .utf8 ∨ error = .invalidUrl := by
  induction multimap with
  | nil => cases failed
  | cons entry rest ih =>
    rw [List.mapM_cons, parseVersioned, parseAssociation] at failed
    split at failed
    · exact Or.inl (Except.error.inj failed).symm
    · split at failed
      · exact Or.inl (Except.error.inj failed).symm
      · split at failed
        · exact Or.inr (Except.error.inj failed).symm
        · cases more : rest.mapM parseVersioned with
          | error other =>
            rw [more] at failed
            obtain rfl := Except.error.inj failed
            exact ih more
          | ok parsed =>
            rw [more] at failed
            cases failed

def Resolves (register : Register N.toRegisterScheme) (publicName : String) (link : N.Url) : Prop :=
  ∃ nrsMap, nrsGet register publicName none = .ok (some link, nrsMap)

/-- The links of a name in a multimap, or those of one version of an entry. -/
def links (multimap : N.Multimap) (publicName : String) (version : Option N.Hash) : Set N.Url :=
  {link | ∃ hash keyValue, (hash, keyValue) ∈ multimap ∧
    parseAssociation keyValue = .ok (⟨publicName, link⟩ : Association N) ∧ ∀ chosen ∈ version, hash = chosen}

theorem nrsGetSubnamesMap_eq {versioned : N.Multimap} {version : Option N.Hash} (fetched : fetchMultimap register = .ok multimap)
    (added : withVersion register multimap version = .ok versioned)
    (converted : convertMultimapToNrsSet versioned publicName version = .ok set) :
    nrsGetSubnamesMap register publicName version = if (getNrsMapFromSet set).size ≠ set.size then
        .error (.conflictingNrsEntries (set.toList.filter fun association =>
            (getNrsMapFromSet set)[association.publicName]? ≠ some association.link) (getNrsMapFromSet set))
      else .ok (getNrsMapFromSet set) := by
  simp only [nrsGetSubnamesMap, fetched]
  rw [added]
  change (convertMultimapToNrsSet versioned publicName version >>= _) = _
  rw [converted]
  rfl

theorem mem_of_getNrsMapFromSet (found : (getNrsMapFromSet set)[publicName]? = some link) : (⟨publicName, link⟩ : Association N) ∈ set := by
  obtain ⟨association, mem, same⟩ := List.mem_map.mp (mem_of_getElem?_ofList found)
  obtain ⟨rfl, rfl⟩ := Prod.mk.inj same
  exact ExtTreeSet.mem_toList.mp mem

/-- The map of a set with a conflict is smaller than the set. -/
theorem size_getNrsMapFromSet_ne (mem : association ∈ set) (conflict : (getNrsMapFromSet set)[association.publicName]? ≠ some association.link) :
    (getNrsMapFromSet set).size ≠ set.size := by
  intro sizes
  have distinct : ((getNrsMapFromSet set).toList.map fun entry =>
      (⟨entry.1, entry.2⟩ : Association N)).Nodup := by
    refine List.Nodup.map (fun left right same => ?_) ?_
    · exact Prod.ext (congrArg Association.publicName same) (congrArg Association.link same)
    · refine ExtTreeMap.distinct_keys_toList.imp fun differs same => differs ?_
      rw [same]
      exact ReflCmp.compare_self
  have inside : ((getNrsMapFromSet set).toList.map fun entry =>
      (⟨entry.1, entry.2⟩ : Association N)) ⊆ set.toList := by
    intro other listed
    obtain ⟨entry, stored, rfl⟩ := List.mem_map.mp listed
    exact ExtTreeSet.mem_toList.mpr
      (mem_of_getNrsMapFromSet (ExtTreeMap.mem_toList_iff_getElem?_eq_some.mp stored))
  have all := (List.subperm_of_subset distinct inside).perm_of_length_le (by
    rw [List.length_map, ExtTreeMap.length_toList, ExtTreeSet.length_toList, sizes])
  obtain ⟨entry, stored, rfl⟩ := List.mem_map.mp (all.mem_iff.mpr (ExtTreeSet.mem_toList.mpr mem))
  exact conflict (ExtTreeMap.mem_toList_iff_getElem?_eq_some.mp stored)

theorem exists_convertMultimapToNrsSet (parses : ∀ entry ∈ multimap, N.Parses entry.2)
    (publicName : String) (version : Option N.Hash) :
    ∃ set, convertMultimapToNrsSet multimap publicName version = .ok set ∧
      ∀ link, (⟨publicName, link⟩ : Association N) ∈ set ↔ link ∈ links multimap publicName version := by
  obtain ⟨parsed, mapped⟩ := exists_mapM_parseVersioned parses
  obtain ⟨-, members⟩ := mapM_parseVersioned mapped
  rw [convertMultimapToNrsSet, mapped]
  cases version with
  | none =>
    refine ⟨_, rfl, fun link => ?_⟩
    rw [ExtTreeSet.mem_ofList, List.contains_iff_mem, List.mem_map]
    simp [links, members]
  | some version =>
    refine ⟨_, rfl, fun link => ?_⟩
    rw [ExtTreeSet.mem_ofList, List.contains_iff_mem, List.mem_map]
    simp only [links, Set.mem_ofPred_eq, List.mem_filter, Option.mem_some_iff, forall_eq']
    constructor
    · rintro ⟨⟨hash, association⟩, ⟨mem, kept⟩, rfl⟩
      obtain ⟨keyValue, listed, read⟩ := (members _ _).mp mem
      refine ⟨hash, keyValue, listed, read, ?_⟩
      simpa using kept
    · rintro ⟨hash, keyValue, listed, read, rfl⟩
      exact ⟨_, ⟨(members _ _).mpr ⟨keyValue, listed, read⟩, by simp⟩, rfl⟩

section Get

variable {multimap versioned : N.Multimap} {version : Option N.Hash}

variable (fetched : fetchMultimap register = .ok multimap)
  (added : withVersion register multimap version = .ok versioned) (parses : ∀ entry ∈ versioned, N.Parses entry.2)
include fetched added parses

/-- Two links of a name are a conflict. -/
theorem nrsGet_of_nontrivial
    (several : (links versioned publicName version).Nontrivial) :
    ∃ conflicts map, nrsGet register publicName version = .error (.conflictingNrsEntries conflicts map) := by
  obtain ⟨set, converted, members⟩ := exists_convertMultimapToNrsSet parses publicName version
  obtain ⟨link, live, differs⟩ : ∃ link ∈ links versioned publicName version,
      (getNrsMapFromSet set)[publicName]? ≠ some link := by
    obtain ⟨one, oneLive, other, otherLive, distinct⟩ := several
    by_cases stored : (getNrsMapFromSet set)[publicName]? = some one
    · refine ⟨other, otherLive, fun same => distinct ?_⟩
      exact Option.some.inj (stored.symm.trans same)
    · exact ⟨one, oneLive, stored⟩
  have mem := (members link).mpr live
  rw [nrsGet, nrsGetSubnamesMap_eq fetched added converted, if_pos (size_getNrsMapFromSet_ne mem differs),
    ignoreConflicts, if_pos]
  · exact ⟨_, _, rfl⟩
  · simp only [List.any_filter, List.any_eq_true, Bool.and_eq_true, decide_eq_true_eq]
    exact ⟨_, ExtTreeSet.mem_toList.mpr mem, differs, rfl⟩

theorem nrsGet_of_subsingleton
    (single : (links versioned publicName version).Subsingleton) :
    ∃ map : NrsMap N, (∀ link, map[publicName]? = some link ↔ link ∈ links versioned publicName version) ∧
      nrsGet register publicName version = (getLink map publicName).map (·, map) := by
  obtain ⟨set, converted, members⟩ := exists_convertMultimapToNrsSet parses publicName version
  have stored (link : N.Url) : (getNrsMapFromSet set)[publicName]? = some link ↔
      link ∈ links versioned publicName version := by
    refine ⟨fun found => (members link).mp (mem_of_getNrsMapFromSet found), fun live => ?_⟩
    refine getElem?_ofList_of_unique (fun other mem => ?_)
      (List.mem_map.mpr ⟨_, ExtTreeSet.mem_toList.mpr ((members link).mpr live), rfl⟩)
    obtain ⟨association, inside, same⟩ := List.mem_map.mp mem
    obtain ⟨rfl, rfl⟩ := Prod.mk.inj same
    exact single ((members _).mp (ExtTreeSet.mem_toList.mp inside)) live
  refine ⟨getNrsMapFromSet set, stored, ?_⟩
  have map : ignoreConflicts publicName (nrsGetSubnamesMap register publicName version) =
      .ok (getNrsMapFromSet set) := by
    rw [nrsGetSubnamesMap_eq fetched added converted]
    split
    · rw [ignoreConflicts, if_neg]
      -- the conflicts are those of other names
      simp only [List.any_filter, List.any_eq_true, Bool.and_eq_true, decide_eq_true_eq, not_exists, not_and]
      rintro association mem conflict rfl
      exact conflict ((stored _).mpr ((members _).mp (ExtTreeSet.mem_toList.mp mem)))
    · rfl
  rw [nrsGet, map]
  rfl

/-- The answer is the link of the name when it has one, and a conflict when it has several. -/
theorem nrsGet_iff :
    (∀ link, (∃ nrsMap, nrsGet register publicName version = .ok (some link, nrsMap)) ↔
      links versioned publicName version = {link}) ∧
    ((∃ conflicts map, nrsGet register publicName version = .error (.conflictingNrsEntries conflicts map)) ↔
      (links versioned publicName version).Nontrivial) ∧
    (links versioned publicName version = ∅ → (nrsGet register publicName version).map Prod.fst =
      if publicNameContainsSubname publicName then .error .contentError else .ok none) := by
  by_cases several : (links versioned publicName version).Nontrivial
  · obtain ⟨conflicts, map, got⟩ := nrsGet_of_nontrivial fetched added parses several
    rw [got]
    refine ⟨fun link => ⟨?_, fun one => ?_⟩, ⟨fun _ => several, fun _ => ⟨_, _, rfl⟩⟩, fun none => ?_⟩
    · rintro ⟨nrsMap, same⟩
      cases same
    · exact absurd (one ▸ several) Set.not_nontrivial_singleton
    · exact absurd (none ▸ several) Set.not_nontrivial_empty
  · obtain ⟨map, stored, got⟩ := nrsGet_of_subsingleton fetched added parses (Set.not_nontrivial_iff.mp several)
    rw [got, getLink]
    cases found : map[publicName]? with
    | some one =>
      have all : links versioned publicName version = {one} := by
        ext link
        rw [← stored, found, Option.some.injEq, Set.mem_singleton_iff, eq_comm]
      refine ⟨fun link => ?_, ⟨?_, fun two => absurd two several⟩, fun none => ?_⟩
      · rw [all, Set.singleton_eq_singleton_iff]
        constructor
        · rintro ⟨nrsMap, same⟩
          exact Option.some.inj (Prod.mk.inj (Except.ok.inj same)).1
        · rintro rfl
          exact ⟨map, rfl⟩
      · rintro ⟨conflicts, other, same⟩
        cases same
      · exact absurd (all.symm.trans none) (Set.singleton_ne_empty one)
    | none =>
      have empty (link : N.Url) : link ∉ links versioned publicName version := by
        rw [← stored, found]
        simp
      refine ⟨fun link => ⟨?_, fun one => ?_⟩, ⟨?_, fun two => absurd two several⟩, fun _ => ?_⟩
      · rintro ⟨nrsMap, same⟩
        dsimp only at same
        split at same <;> cases same
      · exact absurd (one ▸ rfl : link ∈ _) (empty link)
      · rintro ⟨conflicts, other, same⟩
        dsimp only at same
        split at same <;> cases same
      · dsimp only
        split <;> rfl

end Get

theorem resolves_iff_links (fetched : fetchMultimap register = .ok multimap)
    (parses : ∀ entry ∈ multimap, N.Parses entry.2) :
    Resolves register publicName link ↔ links multimap publicName none = {link} :=
  (nrsGet_iff fetched rfl parses).1 link

theorem Resolves.parses (resolves : Resolves register publicName link) (fetched : fetchMultimap register = .ok multimap) : ∀ entry ∈ multimap, N.Parses entry.2 := by
  obtain ⟨nrsMap, got⟩ := resolves
  rw [nrsGet, bind_eq_ok] at got
  obtain ⟨map, mapped, -⟩ := got
  cases parsing : multimap.mapM parseVersioned with
  | error error =>
    have failed : nrsGetSubnamesMap register publicName none = .error error := by
      simp only [nrsGetSubnamesMap, fetched, withVersion]
      change (convertMultimapToNrsSet multimap publicName none >>= _) = _
      rw [convertMultimapToNrsSet, parsing]
      rfl
    rw [failed] at mapped
    rcases mapM_parseVersioned_error parsing with rfl | rfl <;> cases mapped
  | ok parsed => exact (mapM_parseVersioned parsing).1

/-- The entry of a version: the live one, or else the one that the register still has. -/
def EntryOf (register : Register N.toRegisterScheme) (multimap : N.Multimap) (version : N.Hash)
    (keyValue : MultimapKeyValue) : Prop :=
  (version, keyValue) ∈ multimap ∨
    (∀ entry ∈ multimap, entry.1 ≠ version) ∧ fetchMultimapValueByHash register version = .ok keyValue

theorem EntryOf.withVersion {version : N.Hash}
    (fetched : fetchMultimap register = .ok multimap) (entryOf : EntryOf register multimap version keyValue) :
    ∃ versioned, withVersion register multimap (some version) = .ok versioned ∧
      (∀ other, (version, other) ∈ versioned ↔ other = keyValue) ∧
      ∀ entry ∈ versioned, entry ∈ multimap ∨ entry.2 = keyValue := by
  rw [NrsScheme.withVersion]
  rcases entryOf with live | ⟨superseded, found⟩
  · rw [if_pos (List.any_eq_true.mpr ⟨_, live, decide_eq_true rfl⟩)]
    refine ⟨multimap, rfl, fun other => ⟨fun mem => ?_, ?_⟩, fun entry mem => Or.inl mem⟩
    · exact fetchMultimap_unique fetched mem live
    · rintro rfl
      exact live
  · have unlisted : ¬ (multimap.any fun entry => entry.1 = version) = true := by
      intro listed
      obtain ⟨entry, mem, same⟩ := List.any_eq_true.mp listed
      exact superseded entry mem (of_decide_eq_true same)
    rw [if_neg unlisted, found]
    refine ⟨_, rfl, fun other => ?_, fun entry mem => ?_⟩
    · rw [List.mem_append, List.mem_singleton, Prod.mk.injEq, eq_self, true_and]
      exact or_iff_right fun mem => superseded _ mem rfl
    · rcases List.mem_append.mp mem with old | new
      · exact Or.inl old
      · exact Or.inr (congrArg Prod.snd (List.mem_singleton.mp new))

/-- What a name resolves to, whatever a multimap of associations contains: the only link of the name, or a
conflict when it has several, and with a version the link of that entry if its key is the name. -/
theorem nrsGet_resolves {multimap : N.Multimap} (fetched : fetchMultimap register = .ok multimap)
    (parses : ∀ entry ∈ multimap, N.Parses entry.2) (publicName : String) :
    (∀ link, Resolves register publicName link ↔ links multimap publicName none = {link}) ∧
      ((∃ conflicts map, nrsGet register publicName none = .error (.conflictingNrsEntries conflicts map)) ↔
        (links multimap publicName none).Nontrivial) ∧
      (links multimap publicName none = ∅ → (nrsGet register publicName none).map Prod.fst =
        if publicNameContainsSubname publicName then .error .contentError else .ok none) ∧
      ∀ version keyValue association, EntryOf register multimap version keyValue →
        parseAssociation keyValue = .ok association → ∀ link,
          (∃ nrsMap, nrsGet register publicName (some version) = .ok (some link, nrsMap)) ↔
            association = (⟨publicName, link⟩ : Association N) := by
  have added : withVersion register multimap none = .ok multimap := rfl
  obtain ⟨single, several, absent⟩ := nrsGet_iff fetched added parses
  refine ⟨single, several, absent, fun version keyValue association entryOf parsed link => ?_⟩
  obtain ⟨versioned, added, only, inside⟩ := entryOf.withVersion fetched
  have parsesAll : ∀ entry ∈ versioned, N.Parses entry.2 := by
    intro entry mem
    rcases inside entry mem with old | same
    · exact parses entry old
    · exact ⟨association, same ▸ parsed⟩
  have chosen (other : N.Url) : other ∈ links versioned publicName (some version) ↔
      association = (⟨publicName, other⟩ : Association N) := by
    constructor
    · rintro ⟨hash, otherValue, mem, one, named⟩
      obtain rfl := named version rfl
      obtain rfl := (only otherValue).mp mem
      exact Except.ok.inj (parsed.symm.trans one)
    · rintro rfl
      exact ⟨version, keyValue, (only keyValue).mpr rfl, parsed, fun _ same => Option.some.inj same⟩
  rw [(nrsGet_iff fetched added parsesAll).1 link, Set.eq_singleton_iff_unique_mem]
  refine ⟨fun one => (chosen link).mp one.1, fun same => ⟨(chosen link).mpr same, fun other mem => ?_⟩⟩
  exact (congrArg Association.link (same.symm.trans ((chosen other).mp mem))).symm

/-! ## Names that are associated again -/

theorem currentVersions_eq_ok {versions : ExtTreeSet N.Hash}
    (current : currentVersions register publicName = .ok versions) :
    ∃ multimap, fetchMultimap register = .ok multimap ∧
      ∀ hash, hash ∈ versions ↔
        ∃ keyValue, (hash, keyValue) ∈ multimap ∧ keyValue.1 = intoBytes publicName := by
  rw [currentVersions] at current
  split at current
  · cases current
  · rename_i entries values
    obtain rfl := Except.ok.inj current
    rw [fetchMultimapValuesByKey, bind_eq_ok] at values
    obtain ⟨multimap, fetched, filtered⟩ := values
    obtain rfl := Except.ok.inj filtered
    refine ⟨multimap, fetched, fun hash => ?_⟩
    simp [ExtTreeSet.mem_ofList]

theorem nrsAssociate_eq_ok (associated : nrsAssociate keypair register publicName link = .ok (hash, after)) :
    ∃ versions, currentVersions register publicName = .ok versions ∧
      multimapInsert keypair register (associationEntry publicName link) versions = .ok (hash, after) := by
  rw [nrsAssociate] at associated
  split at associated
  · cases associated
  · split at associated
    · cases associated
    · rw [bind_eq_ok] at associated
      obtain ⟨versions, current, inserted⟩ := associated
      exact ⟨versions, current, mapError_eq_ok.mp inserted⟩

section

variable (ofMultimap : OfMultimap register)
  (associated : nrsAssociate keypair register publicName link = .ok (hash, after))
include ofMultimap associated

/-- What the multimap of names contains after a name is associated: its new entry, unless that has been
superseded before, and the entries of other names. -/
theorem fetch_of_nrsAssociate :
    ∃ before multimap, fetchMultimap register = .ok before ∧
      fetchMultimap after = .ok multimap ∧
      ∀ entry, entry ∈ multimap ↔
        entry = (hash, associationEntry publicName link) ∧ ¬ Superseded register hash ∨
          entry ∈ before ∧ entry.2.1 ≠ intoBytes publicName := by
  obtain ⟨versions, current, inserted⟩ := nrsAssociate_eq_ok associated
  obtain ⟨before, fetched, versionsIff⟩ := currentVersions_eq_ok current
  obtain ⟨rfl, rfl⟩ := writeEntry_eq_ok inserted
  have known : ∀ child ∈ versions, Known register child := by
    intro child named
    obtain ⟨keyValue, mem, -⟩ := (versionsIff child).mp named
    exact (ofMultimap.known_of_mem fetched mem).1
  obtain ⟨before', multimap, fetched', fetchedAfter, members⟩ :=
    ofMultimap.fetch_grow known (Or.inr ⟨associationEntry publicName link, rfl⟩)
  obtain rfl := Except.ok.inj (fetched'.symm.trans fetched)
  refine ⟨before', multimap, fetched, fetchedAfter, ?_⟩
  rintro ⟨other, keyValue⟩
  rw [members]
  refine or_congr ⟨?_, ?_⟩ (and_congr_right fun mem => not_congr ⟨?_, ?_⟩)
  · rintro ⟨rfl, encoded, current⟩
    obtain rfl := toVecNamed_injective encoded
    exact ⟨rfl, current⟩
  · rintro ⟨same, current⟩
    obtain ⟨rfl, rfl⟩ := Prod.mk.inj same
    exact ⟨rfl, rfl, current⟩
  · intro named
    obtain ⟨otherValue, otherMem, key⟩ := (versionsIff other).mp named
    rwa [fetchMultimap_unique fetched mem otherMem]
  · exact fun key => (versionsIff other).mpr ⟨keyValue, mem, key⟩

/-- A name that is associated resolves to the link exactly when the entry that is written has not been
superseded before, and all associations can be parsed. -/
theorem resolves_iff :
    ∃ before, fetchMultimap register = .ok before ∧ (Resolves after publicName link ↔
      ¬ Superseded register hash ∧ (∀ entry ∈ before, entry.2.1 ≠ intoBytes publicName → N.Parses entry.2) ∧
        N.fromUrl (N.urlToString link) = some link) := by
  obtain ⟨before, multimap, fetched, fetchedAfter, members⟩ := fetch_of_nrsAssociate ofMultimap associated
  refine ⟨before, fetched, fun resolves => ?_, ?_⟩
  · have parses := resolves.parses fetchedAfter
    have live : link ∈ links multimap publicName none := by
      rw [(resolves_iff_links fetchedAfter parses).mp resolves]
      exact Set.mem_singleton link
    obtain ⟨version, keyValue, mem, parsed, -⟩ := live
    rcases (members _).mp mem with ⟨same, current⟩ | ⟨-, other⟩
    · obtain ⟨rfl, rfl⟩ := Prod.mk.inj same
      refine ⟨current, fun other inside differs => ?_, (parseAssociation_associationEntry.mp parsed).2⟩
      exact parses other ((members other).mpr (Or.inr ⟨inside, differs⟩))
    · exact absurd (key_of_parseAssociation parsed) other
  · rintro ⟨current, parses, read⟩
    have parsed : parseAssociation (associationEntry publicName link) =
        .ok (⟨publicName, link⟩ : Association N) :=
      parseAssociation_associationEntry.mpr ⟨rfl, read⟩
    have parsesAfter : ∀ entry ∈ multimap, N.Parses entry.2 := by
      intro entry mem
      rcases (members entry).mp mem with ⟨rfl, -⟩ | ⟨inside, differs⟩
      · exact ⟨_, parsed⟩
      · exact parses entry inside differs
    rw [resolves_iff_links fetchedAfter parsesAfter, Set.eq_singleton_iff_unique_mem]
    refine ⟨⟨hash, _, (members _).mpr (Or.inl ⟨rfl, current⟩), parsed, by simp⟩, ?_⟩
    rintro other ⟨version, keyValue, mem, one, -⟩
    rcases (members _).mp mem with ⟨same, -⟩ | ⟨-, differs⟩
    · obtain ⟨-, rfl⟩ := Prod.mk.inj same
      exact congrArg Association.link (Except.ok.inj (one.symm.trans parsed))
    · exact absurd (key_of_parseAssociation one) differs

end

/-- What calls on a multimap do, whatever calls were made before: an entry is inserted exactly when an entry
with the same key and value and in place of the same entries has not been superseded before, exactly the
removed entries are gone, and a public name resolves to the link it is associated to exactly when its entry
is inserted and all associations can be parsed. -/
theorem multimap_calls_iff {register : Register N.toRegisterScheme} (reached : Reached register)
    (keypair : N.Keypair) : (∀ keyValue replace hash after, (∀ child ∈ replace, Known register child) →
      multimapInsert keypair register keyValue replace = .ok (hash, after) →
      ∃ before multimap, fetchMultimap register = .ok before ∧ fetchMultimap after = .ok multimap ∧
        (Inserted hash keyValue replace before multimap ↔
          ¬ Superseded register (N.registers.hash ⟨replace, N.toVecNamed keyValue⟩))) ∧
      (∀ toRemove hash after, (∀ child ∈ toRemove, Known register child) →
        multimapRemove keypair register toRemove = .ok (hash, after) →
        ∃ before multimap, fetchMultimap register = .ok before ∧ fetchMultimap after = .ok multimap ∧
          Removed toRemove before multimap) ∧
      ∀ publicName link hash after, nrsAssociate keypair register publicName link = .ok (hash, after) →
        ∃ before versions, fetchMultimap register = .ok before ∧
          currentVersions register publicName = .ok versions ∧ (Resolves after publicName link ↔
            ¬ Superseded register (N.registers.hash ⟨versions, N.toVecNamed (associationEntry publicName link)⟩) ∧
              (∀ entry ∈ before, entry.2.1 ≠ intoBytes publicName → N.Parses entry.2) ∧
              N.fromUrl (N.urlToString link) = some link) := by
  refine ⟨fun keyValue replace hash after known inserted => ?_, fun _ _ _ known removed => ?_,
    fun publicName link hash after associated => ?_⟩
  · obtain ⟨rfl, -⟩ := writeEntry_eq_ok inserted
    exact reached.ofMultimap.inserted_iff known inserted
  · exact reached.ofMultimap.removed known removed
  · obtain ⟨before, fetched, resolves⟩ := resolves_iff reached.ofMultimap associated
    obtain ⟨versions, current, inserted⟩ := nrsAssociate_eq_ok associated
    obtain ⟨rfl, -⟩ := writeEntry_eq_ok inserted
    exact ⟨before, versions, fetched, current, resolves⟩

/-! ## A name that is removed and associated again -/

abbrev sampleNrs : NrsScheme where
  toMultimapScheme := sampleMultimaps
  Url := String
  fromUrl := some
  urlToString := id
  isPublicName _ := true
  lacksVersion _ := false

def sampleNames : Register sampleNrs.toRegisterScheme :=
  .new (.key 0) sampleRegisterName 0 (samplePolicy 0)

theorem sampleNames_reached : Reached (S := sampleMultimaps) sampleNames :=
  ⟨.key 0, sampleRegisterName, 0, samplePolicy 0, [], trivial, rfl⟩

theorem multimap_calls_sampleNames : Reached (S := sampleMultimaps) sampleNames ∧ ∃ hash after before multimap,
      multimapInsert (S := sampleMultimaps) 0 sampleNames ([1], [2]) ∅ = .ok (hash, after) ∧
        fetchMultimap sampleNames = .ok before ∧ fetchMultimap after = .ok multimap ∧
        Inserted (S := sampleMultimaps) hash ([1], [2]) ∅ before multimap := by
  have succeeds : (multimapInsert (S := sampleMultimaps) 0 sampleNames ([1], [2]) ∅).isOk = true := by
    decide +kernel
  obtain ⟨inserts, -⟩ := multimap_calls_iff (N := sampleNrs) sampleNames_reached 0
  cases inserted : multimapInsert (S := sampleMultimaps) 0 sampleNames ([1], [2]) ∅ with
  | error error =>
    rw [inserted] at succeeds
    cases succeeds
  | ok result =>
    obtain ⟨hash, after⟩ := result
    obtain ⟨before, multimap, fetched, fetchedAfter, insertedIff⟩ :=
      inserts ([1], [2]) ∅ hash after (by simp) inserted
    refine ⟨sampleNames_reached, hash, after, before, multimap, rfl, fetched, fetchedAfter, ?_⟩
    exact insertedIff.mpr MerkleReg.not_superseded_new

/-- A name with two links. -/
def sampleConflict : Register sampleNrs.toRegisterScheme :=
  (sampleNames.grow ⟨∅, sampleMultimaps.toVecNamed (associationEntry (N := sampleNrs) "a" "b")⟩).grow
    ⟨∅, sampleMultimaps.toVecNamed (associationEntry (N := sampleNrs) "a" "c")⟩

theorem nrsGet_sampleConflict : ∃ multimap : sampleNrs.Multimap,
    fetchMultimap (S := sampleMultimaps) sampleConflict = .ok multimap ∧
      (∀ entry ∈ multimap, sampleNrs.Parses entry.2) ∧ ∃ conflicts map,
        nrsGet (N := sampleNrs) sampleConflict "a" none = .error (.conflictingNrsEntries conflicts map) := by
  have contents : (fetchMultimap (S := sampleMultimaps) sampleConflict).toOption.map (List.map Prod.snd) =
      some [associationEntry (N := sampleNrs) "a" "b", associationEntry (N := sampleNrs) "a" "c"] := by
    decide +kernel
  have parsed (link : String) : parseAssociation (associationEntry (N := sampleNrs) "a" link) =
      .ok (⟨"a", link⟩ : Association sampleNrs) := parseAssociation_associationEntry.mpr ⟨rfl, rfl⟩
  cases fetched : fetchMultimap (S := sampleMultimaps) sampleConflict with
  | error error =>
    rw [fetched] at contents
    cases contents
  | ok multimap =>
    rw [fetched] at contents
    have listed : multimap.map Prod.snd = _ := Option.some.inj contents
    have live (link : String) (mem : associationEntry (N := sampleNrs) "a" link ∈ multimap.map Prod.snd) :
        link ∈ links (N := sampleNrs) multimap "a" none := by
      obtain ⟨⟨hash, keyValue⟩, mem, rfl⟩ := List.mem_map.mp mem
      exact ⟨hash, _, mem, parsed link, by simp⟩
    have parses : ∀ entry ∈ multimap, sampleNrs.Parses entry.2 := by
      intro entry mem
      have either := List.mem_map_of_mem (f := Prod.snd) mem
      rw [listed, List.mem_pair] at either
      rcases either with same | same <;> exact ⟨_, same ▸ parsed _⟩
    refine ⟨multimap, rfl, parses, (nrsGet_resolves fetched parses "a").2.1.mpr ?_⟩
    exact ⟨"b", live _ (by simp [listed]), "c", live _ (by simp [listed]), by decide⟩

/-- What a name resolves to after it is associated to a link, after it is removed, and after it is
associated to the link again. -/
def associateRemoveAssociate (keypair : N.Keypair) (register : Register N.toRegisterScheme)
    (publicName : String) (link : N.Url) : Except (NrsError N) (List (Option N.Url)) := do
  let (_, register) ← nrsAssociate keypair register publicName link
  let (first, _) ← nrsGet register publicName none
  let (_, register) ← nrsRemove keypair register publicName
  let (second, _) ← nrsGet register publicName none
  let (_, register) ← nrsAssociate keypair register publicName link
  let (third, _) ← nrsGet register publicName none
  return [first, second, third]

/-- A name that is removed and associated again does not resolve. -/
theorem associateRemoveAssociate_sampleNames : Reached (S := sampleMultimaps) sampleNames ∧
      (associateRemoveAssociate (N := sampleNrs) 0 sampleNames "a" "b").toOption = some [some "b", none, none] :=
  ⟨sampleNames_reached, by decide +kernel⟩

end NrsScheme

end SafeNetwork
