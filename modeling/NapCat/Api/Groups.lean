/-
The group routes: `/groups` and `/get_group_list` list the group cache, `/get_group_info` looks one
group up. The list falls back to the default groups where the cache is empty, the lookup wherever the
cache has no group of the requested id; agreement of the two is settled for every cache.
-/
import NapCat.Api.SendGuards

namespace NapCat.Api

/-- Group information. -/
structure GroupInfo where
  groupId : String
  groupName : String
  deriving DecidableEq, Repr

/-- Group info request payload. -/
structure GetGroupInfoRequest where
  groupId : String
  noCache : Bool

/-- Group info response payload. -/
structure GroupInfoResponse where
  groupId : String
  groupName : String
  groupMemo : String
  groupCreateTime : UInt64
  groupLevel : String
  memberCount : Nat
  maxMemberCount : Nat
  adminFlag : Bool
  deriving DecidableEq, Repr

def compatibilityDefaultGroups : List GroupInfo := [⟨"g1", "devops"⟩, ⟨"g2", "design"⟩]

def groupInfoFromCache (group : GroupInfo) : GroupInfoResponse where
  groupId := group.groupId
  groupName := group.groupName
  groupMemo := ""
  groupCreateTime := 0
  groupLevel := "owner"
  memberCount := 0
  maxMemberCount := 200
  adminFlag := true

/-! ## Routes, over the groups of the cache -/

def listGroups (cache : List GroupInfo) : ApiEnvelope (List GroupInfo) :=
  ⟨"ok", 0, if cache.isEmpty then compatibilityDefaultGroups else cache, none⟩

def listGroupList (cache : List GroupInfo) : ApiEnvelope (List GroupInfoResponse) :=
  let expanded := (if cache.isEmpty then compatibilityDefaultGroups else cache).map groupInfoFromCache
  ⟨"ok", 0, expanded, none⟩

def getGroupInfo (cache : List GroupInfo) (payload : GetGroupInfoRequest) :
    Except ApiError (ApiEnvelope GroupInfoResponse) :=
  let requestedGroupId := Text.trim payload.groupId
  if requestedGroupId.isEmpty then refuse "group_id is required"
  else
    let fallbackGroups := if payload.noCache then none else some compatibilityDefaultGroups
    let candidate := (cache.find? fun group => group.groupId == requestedGroupId).or
      (fallbackGroups.bind fun fallback => fallback.find? fun group => group.groupId == requestedGroupId)
    match candidate with
    | some group => .ok ⟨"ok", 0, groupInfoFromCache group, none⟩
    | none => refuse ("group not found: " ++ requestedGroupId)

/-! ## Agreement -/

/-- The group that the list has first under an id. -/
def firstListed (cache : List GroupInfo) (groupId : String) : Option GroupInfoResponse :=
  (listGroupList cache).data.find? fun group => group.groupId == groupId

/-- What the list of a cache and lookups in it have to do with each other. -/
structure ListingAgrees (cache : List GroupInfo) : Prop where
  answered : ∀ groupId, (getGroupInfo cache ⟨groupId, false⟩).isOk = true ↔
    ∃ group ∈ (listGroupList cache).data, group.groupId = Text.trim groupId
  first : ∀ groupId r, getGroupInfo cache ⟨groupId, false⟩ = .ok r →
    ∃ group, firstListed cache (Text.trim groupId) = some group ∧ r.data.groupId = group.groupId ∧
      r.data.groupName = group.groupName
  listed : ∀ group ∈ (listGroupList cache).data, ∃ r, getGroupInfo cache ⟨group.groupId, false⟩ = .ok r ∧
    r.data.groupId = group.groupId

/-- The groups that a lookup searches, in its order. -/
def searched (cache : List GroupInfo) : List GroupInfo := cache ++ compatibilityDefaultGroups

/-- A lookup finds the first group of the trimmed id among those it searches. -/
theorem getGroupInfo_ok_iff (cache : List GroupInfo) (groupId : String) (r : ApiEnvelope GroupInfoResponse) :
    getGroupInfo cache ⟨groupId, false⟩ = .ok r ↔ Text.isBlank groupId = false ∧
      ∃ group, (searched cache).find? (fun g => g.groupId == Text.trim groupId) = some group ∧
        r = ⟨"ok", 0, groupInfoFromCache group, none⟩ := by
  rw [searched, List.find?_append, Text.isBlank]
  unfold getGroupInfo refuse
  dsimp only
  simp only [Bool.false_eq_true, if_false, Option.bind_some]
  split_ifs with hempty
  · simp [hempty]
  · generalize Option.or _ _ = candidate
    cases candidate with
    | none => simp
    | some group => simp [hempty, eq_comm]

theorem getGroupInfo_isOk_iff (cache : List GroupInfo) (groupId : String) :
    (getGroupInfo cache ⟨groupId, false⟩).isOk = true ↔ Text.isBlank groupId = false ∧
      ∃ group ∈ searched cache, group.groupId = Text.trim groupId := by
  rw [Fallible.isOk_iff]
  simp only [getGroupInfo_ok_iff]
  constructor
  · rintro ⟨r, hblank, group, hfind, -⟩
    exact ⟨hblank, group, List.mem_of_find?_eq_some hfind, by simpa using List.find?_some hfind⟩
  · rintro ⟨hblank, group, hmem, hid⟩
    have hsome : ((searched cache).find? fun g => g.groupId == Text.trim groupId).isSome :=
      List.find?_isSome.2 ⟨group, hmem, by simp [hid]⟩
    obtain ⟨found, hfound⟩ := Option.isSome_iff_exists.1 hsome
    exact ⟨_, hblank, found, hfound, rfl⟩

/-- Both list routes list the same groups. -/
theorem listGroupList_data (cache : List GroupInfo) :
    (listGroupList cache).data = (listGroups cache).data.map groupInfoFromCache := rfl

theorem firstListed_eq (cache : List GroupInfo) (groupId : String) :
    firstListed cache groupId =
      ((listGroups cache).data.find? fun g => g.groupId == groupId).map groupInfoFromCache := by
  rw [firstListed, listGroupList_data, List.find?_map]
  rfl

theorem listGroups_of_ne_nil {cache : List GroupInfo} (h : cache ≠ []) : (listGroups cache).data = cache := by
  cases cache with
  | nil => exact absurd rfl h
  | cons group groups => rfl

theorem default_clean : ∀ group ∈ compatibilityDefaultGroups, Clean group.groupId := by
  simp only [compatibilityDefaultGroups, List.forall_mem_cons]
  exact ⟨⟨by decide, by decide⟩, ⟨by decide, by decide⟩, by simp⟩

/-- No cache, or one of clean ids that has the default groups' ids among them. -/
def CoversDefaults (cache : List GroupInfo) : Prop :=
  cache = [] ∨ ((∀ group ∈ cache, Clean group.groupId) ∧
    ∀ group ∈ compatibilityDefaultGroups, ∃ cached ∈ cache, cached.groupId = group.groupId)

theorem CoversDefaults.clean {cache : List GroupInfo} (h : CoversDefaults cache) :
    ∀ group ∈ (listGroups cache).data, Clean group.groupId := by
  rcases h with rfl | ⟨hclean, -⟩
  · exact default_clean
  · by_cases hnil : cache = []
    · subst hnil
      exact default_clean
    · rw [listGroups_of_ne_nil hnil]
      exact hclean

/-- Where the cache covers the default groups, a lookup finds what the list has. -/
theorem CoversDefaults.find {cache : List GroupInfo} (h : CoversDefaults cache) (groupId : String) :
    (searched cache).find? (fun g => g.groupId == groupId) =
      (listGroups cache).data.find? (fun g => g.groupId == groupId) := by
  rcases h with rfl | ⟨-, hcovers⟩
  · rfl
  have hnil : cache ≠ [] := by
    rintro rfl
    obtain ⟨_, hmem, -⟩ := hcovers ⟨"g1", "devops"⟩ (.head _)
    cases hmem
  rw [listGroups_of_ne_nil hnil, searched, List.find?_append]
  cases hcache : cache.find? (fun g => g.groupId == groupId) with
  | some group => rfl
  | none =>
    -- A default group of this id would be in the cache as well.
    rw [Option.none_or, List.find?_eq_none]
    intro group hgroup hid
    obtain ⟨cached, hmem, hcached⟩ := hcovers group hgroup
    have := List.find?_eq_none.1 hcache cached hmem
    rw [hcached] at this
    exact this hid

theorem CoversDefaults.agrees {cache : List GroupInfo} (h : CoversDefaults cache) : ListingAgrees cache where
  answered groupId := by
    rw [getGroupInfo_isOk_iff, listGroupList_data]
    have hsearch : (∃ g ∈ searched cache, g.groupId = Text.trim groupId) ↔
        ∃ g ∈ (listGroups cache).data, g.groupId = Text.trim groupId := by
      simpa [List.find?_isSome] using congrArg (fun o => o.isSome = true) (h.find (Text.trim groupId))
    rw [hsearch]
    constructor
    · rintro ⟨-, group, hmem, hid⟩
      exact ⟨groupInfoFromCache group, List.mem_map_of_mem hmem, hid⟩
    · rintro ⟨_, hmem, hid⟩
      obtain ⟨group, hgroup, rfl⟩ := List.mem_map.1 hmem
      refine ⟨?_, group, hgroup, hid⟩
      have hclean := (h.clean group hgroup).1
      rw [show group.groupId = Text.trim groupId from hid, isBlank_trim] at hclean
      exact hclean
  first groupId r hr := by
    obtain ⟨-, group, hfind, rfl⟩ := (getGroupInfo_ok_iff ..).1 hr
    rw [firstListed_eq, ← h.find, hfind]
    exact ⟨_, rfl, rfl, rfl⟩
  listed := by
    intro response hmem
    rw [listGroupList_data] at hmem
    obtain ⟨group, hgroup, rfl⟩ := List.mem_map.1 hmem
    obtain ⟨hblank, htrim⟩ := h.clean group hgroup
    have hsome : ((listGroups cache).data.find? fun g => g.groupId == group.groupId).isSome :=
      List.find?_isSome.2 ⟨group, hgroup, by simp⟩
    obtain ⟨found, hfound⟩ := Option.isSome_iff_exists.1 hsome
    have hid : found.groupId = group.groupId := by simpa using List.find?_some hfound
    rw [← h.find, ← htrim] at hfound
    exact ⟨_, (getGroupInfo_ok_iff ..).2 ⟨hblank, found, hfound, rfl⟩, hid⟩

theorem ListingAgrees.covers {cache : List GroupInfo} (h : ListingAgrees cache) : CoversDefaults cache := by
  by_cases hnil : cache = []
  · exact .inl hnil
  have hdata := listGroups_of_ne_nil hnil
  refine .inr ⟨fun group hgroup => ?_, fun group hgroup => ?_⟩
  · have hmem : groupInfoFromCache group ∈ (listGroupList cache).data := by
      rw [listGroupList_data, hdata]
      exact List.mem_map_of_mem hgroup
    obtain ⟨r, hr, hid⟩ := h.listed _ hmem
    obtain ⟨hblank, found, hfind, rfl⟩ := (getGroupInfo_ok_iff ..).1 hr
    have hfound := List.find?_some hfind
    have htrim : found.groupId = Text.trim group.groupId := eq_of_beq hfound
    exact ⟨hblank, htrim.symm.trans hid⟩
  · obtain ⟨hblank, htrim⟩ := default_clean group hgroup
    have hanswered := (getGroupInfo_isOk_iff cache group.groupId).2
      ⟨hblank, group, List.mem_append_right _ hgroup, htrim.symm⟩
    obtain ⟨response, hmem, hid⟩ := (h.answered _).1 hanswered
    rw [listGroupList_data, hdata] at hmem
    obtain ⟨cached, hcached, rfl⟩ := List.mem_map.1 hmem
    exact ⟨cached, hcached, hid.trans htrim⟩

/-- The list and the lookup agree exactly on the caches that cover the default groups. -/
theorem listingAgrees_iff (cache : List GroupInfo) : ListingAgrees cache ↔ CoversDefaults cache :=
  ⟨ListingAgrees.covers, CoversDefaults.agrees⟩

/-- With one group in the cache, a default group is not listed and still answered. -/
theorem default_answered_unlisted : ¬ ListingAgrees [⟨"test-group", "test-name"⟩] := by
  intro h
  have hanswered : (getGroupInfo [⟨"test-group", "test-name"⟩] ⟨"g1", false⟩).isOk = true := by decide
  obtain ⟨group, hmem, hid⟩ := (h.answered "g1").1 hanswered
  rw [List.mem_singleton.1 hmem] at hid
  revert hid
  decide

end NapCat.Api
