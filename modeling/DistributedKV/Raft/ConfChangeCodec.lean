import DistributedKV.Foundation.Barrier
import DistributedKV.Raft.ClusterConfig
import Mathlib.Data.List.Pairwise

/-!
# Round trip of configuration changes

What `encodeConfChangeEntry` writes, `decodeConfChangeEntry` reads back. The statements follow
the layers of the codec: hosts, members, configurations, whole entries. The writer of an
added member does not check its id and ports, so the round trip of an entry asks for a
complete member.
-/

namespace DistributedKV

open ByteReader List

/-- Both endpoints and the id of a member are present. -/
def ClusterMember.Complete (member : ClusterMember) : Prop :=
  member.nodeId ≠ 0 ∧ member.clientHost ≠ [] ∧ member.peerHost ≠ [] ∧
    member.clientPort ≠ 0 ∧ member.peerPort ≠ 0

theorem uint16_of_nat_mod (value : UInt16) : UInt16.ofNat (value.toNat % 256 ^ 4) = value := by
  rw [Nat.mod_eq_of_lt (by have := value.toNat_lt; omega)]
  exact UInt16.ofNat_toNat

variable {config : ClusterConfiguration} {member : ClusterMember} {members : List ClusterMember}
  {entry : ConfChangeEntry} {operation : MembershipOperation} {bytes : Bytes} {localId : NodeId}

/-- Members that pass the loop have increasing ids. -/
theorem members_valid_pairwise {previousId : NodeId} (h : membersValid previousId members = true) :
    (∀ member ∈ members, previousId < member.nodeId ∧ member.Complete) ∧
      members.Pairwise (fun left right => left.nodeId < right.nodeId) := by
  induction members generalizing previousId with
  | nil => simp
  | cons member rest ih =>
    simp only [membersValid] at h
    split_ifs at h with hinvalid
    simp only [not_or] at hinvalid
    obtain ⟨hzero, hle, hclient, hpeer, hclientPort, hpeerPort⟩ := hinvalid
    obtain ⟨hrest, hpairwise⟩ := ih h
    have hlt : previousId < member.nodeId := UInt64.not_le.mp hle
    refine ⟨?_, pairwise_cons.mpr ⟨fun other hother => (hrest other hother).1, hpairwise⟩⟩
    intro other hother
    rcases mem_cons.mp hother with rfl | hother
    · exact ⟨hlt, hzero, hclient, hpeer, hclientPort, hpeerPort⟩
    · exact ⟨UInt64.lt_trans hlt (hrest other hother).1, (hrest other hother).2⟩

theorem validate_cluster_configuration_ok
    (h : validateClusterConfiguration config localId = .ok ()) :
    config.configId ≠ 0 ∧ config.members ≠ [] ∧ config.members.length ≤ maximumMemberCount ∧
      membersValid 0 config.members = true ∧
      (localId = 0 ∨ localId ∈ configurationMemberIds config) := by
  simp only [validateClusterConfiguration] at h
  split_ifs at h with hmetadata hmembers hlocal
  simp only [not_or, not_lt] at hmetadata
  exact ⟨hmetadata.1, hmetadata.2.1, hmetadata.2.2, by simpa using hmembers, hlocal⟩

theorem complete_of_validate (h : validateClusterConfiguration config localId = .ok ())
    (hmember : member ∈ config.members) : member.Complete :=
  ((members_valid_pairwise (validate_cluster_configuration_ok h).2.2.2.1).1 member hmember).2

theorem nodup_of_validate (h : validateClusterConfiguration config localId = .ok ()) :
    (configurationMemberIds config).Nodup := by
  have hpairwise := (members_valid_pairwise (validate_cluster_configuration_ok h).2.2.2.1).2
  refine (pairwise_map.mpr hpairwise).imp ?_
  intro left right hlt heq
  exact UInt64.lt_irrefl left (heq ▸ hlt)

theorem takes_host {host : Bytes} (h : appendHost host = .ok bytes) :
    Takes readHost bytes host := by
  simp only [appendHost] at h
  split_ifs at h with hinvalid
  cases h
  simp only [not_or, not_lt] at hinvalid
  obtain ⟨hempty, hsize⟩ := hinvalid
  have hlength : (UInt8.ofNat host.length).toNat = host.length :=
    UInt8.toNat_ofNat_of_lt (Nat.lt_of_le_of_lt hsize (by decide))
  have hpresent := length_pos_iff.mpr hempty
  rw [← singleton_append]
  refine Takes.size (fun more => by simp) ((Takes.byte _).bind ?_)
  rw [hlength]
  exact Takes.size (fun more => by omega) (Takes.string host)

/-- A complete member that was written is read back. -/
theorem takes_member (hcomplete : member.Complete) (h : appendMember member = .ok bytes) :
    Takes readMember bytes member := by
  obtain ⟨client, hclient, h⟩ := Barrier.except_bind_eq_ok.mp h
  obtain ⟨peer, hpeer, h⟩ := Barrier.except_bind_eq_ok.mp h
  cases h
  obtain ⟨hid, -, -, hclientPort, hpeerPort⟩ := hcomplete
  simp only [append_assoc]
  refine Takes.room (by simp [append64]) ((Takes.word 8 _).bind ((takes_host hclient).bind
    ((takes_host hpeer).bind (Takes.room (by simp [append32]) ((Takes.word 4 _).bind
      ((Takes.word 4 _).map (Takes.guard ?_ ?_)))))))
  · simp [hid, hclientPort, hpeerPort]
  · rw [uint64_of_nat_mod, uint16_of_nat_mod, uint16_of_nat_mod]
    exact Takes.pure _

theorem takes_members (hcomplete : ∀ member ∈ members, member.Complete)
    (h : appendMembers members = .ok bytes) : Takes (readMembers members.length) bytes members := by
  induction members generalizing bytes with
  | nil =>
    cases h
    exact .pure _
  | cons member others ih =>
    obtain ⟨first, hfirst, h⟩ := Barrier.except_bind_eq_ok.mp h
    obtain ⟨more, hmore, h⟩ := Barrier.except_bind_eq_ok.mp h
    cases h
    obtain ⟨hmember, hothers⟩ := forall_mem_cons.mp hcomplete
    exact (takes_member hmember hfirst).bind ((ih hothers hmore).map (.pure _))

theorem takes_refuse_invalid {result : Except String Unit} (h : result = .ok ()) :
    Takes (refuseInvalid result) [] () := by
  rw [h]
  exact Takes.pure ()

theorem takes_cluster_configuration (h : encodeClusterConfiguration config = .ok bytes) :
    Takes decodeClusterConfiguration bytes config := by
  obtain ⟨_, hvalid, h⟩ := Barrier.except_bind_eq_ok.mp h
  obtain ⟨members, hmembers, h⟩ := Barrier.except_bind_eq_ok.mp h
  cases h
  obtain ⟨hid, hnonempty, hcount, -, -⟩ := validate_cluster_configuration_ok hvalid
  have hpresent := length_pos_iff.mpr hnonempty
  have hfits : config.configId.toNat < 256 ^ 8 := by simpa using config.configId.toNat_lt
  have hconfig : config.configId.toNat ≠ 0 := fun h =>
    hid (UInt64.toNat_inj.mp (by simpa using h))
  rw [append_assoc]
  refine Takes.room (by simp [append64, append32]; omega) ((Takes.word_of_lt hfits).bind
    ((Takes.word_of_lt (Nat.lt_of_le_of_lt hcount (by decide))).bind (Takes.guard (by omega)
      ((takes_members (fun _ => complete_of_validate hvalid) hmembers).map ?_))))
  simp only [UInt64.ofNat_toNat]
  exact (takes_refuse_invalid hvalid).map (Takes.pure _)

/-! ## Sizes -/

theorem append_host_length {host : Bytes} (h : appendHost host = .ok bytes) :
    bytes.length ≤ 256 := by
  simp only [appendHost] at h
  split_ifs at h with hinvalid
  cases h
  simp only [not_or, not_lt, maximumHostSize] at hinvalid
  simp only [length_cons]
  omega

theorem append_member_length (h : appendMember member = .ok bytes) : bytes.length ≤ 528 := by
  obtain ⟨client, hclient, h⟩ := Barrier.except_bind_eq_ok.mp h
  obtain ⟨peer, hpeer, h⟩ := Barrier.except_bind_eq_ok.mp h
  cases h
  have hclientLength := append_host_length hclient
  have hpeerLength := append_host_length hpeer
  simp only [append64, append32, length_append, length_big_endian]
  omega

theorem append_members_length (h : appendMembers members = .ok bytes) :
    bytes.length ≤ 528 * members.length := by
  induction members generalizing bytes with
  | nil =>
    cases h
    rfl
  | cons member others ih =>
    obtain ⟨first, hfirst, h⟩ := Barrier.except_bind_eq_ok.mp h
    obtain ⟨more, hmore, h⟩ := Barrier.except_bind_eq_ok.mp h
    cases h
    have hfirstLength := append_member_length hfirst
    have hmoreLength := ih hmore
    simp only [length_append, length_cons]
    omega

theorem encode_cluster_configuration_length (h : encodeClusterConfiguration config = .ok bytes) :
    12 ≤ bytes.length ∧ bytes.length ≤ 12 + 528 * 64 := by
  obtain ⟨_, hvalid, h⟩ := Barrier.except_bind_eq_ok.mp h
  obtain ⟨members, hmembers, h⟩ := Barrier.except_bind_eq_ok.mp h
  cases h
  obtain ⟨-, -, hcount, -, -⟩ := validate_cluster_configuration_ok hvalid
  have hlength := append_members_length hmembers
  simp only [maximumMemberCount] at hcount
  simp only [append64, append32, length_append, length_big_endian]
  omega

/-! ## Changes -/

/-- What a decoder sees of the member of a change: a removal carries only the id. -/
def ConfChangeEntry.wireMember (entry : ConfChangeEntry) : ClusterMember :=
  match entry.type with
  | .addNode => entry.member
  | .removeNode => { nodeId := entry.member.nodeId }

/-- A member field is read back as far as it was written. -/
theorem takes_changed_member (hcomplete : entry.type = .addNode → entry.member.Complete)
    (hremove : entry.type = .removeNode → entry.member.nodeId ≠ 0)
    (h : appendChangedMember entry.type entry.member = .ok bytes) :
    Takes (readChangedMember entry.type) bytes entry.wireMember := by
  rw [ConfChangeEntry.wireMember]
  cases htype : entry.type with
  | addNode =>
    rw [htype] at h
    exact takes_member (hcomplete htype) h
  | removeNode =>
    rw [htype] at h
    cases h
    have hid : entry.member.nodeId.toNat ≠ 0 := fun h =>
      hremove htype (UInt64.toNat_inj.mp (by simpa using h))
    have hfits : entry.member.nodeId.toNat < 256 ^ 8 := by
      simpa using entry.member.nodeId.toNat_lt
    refine Takes.room (by simp [append64]) ((Takes.word_of_lt hfits).map (Takes.guard hid ?_))
    rw [UInt64.ofNat_toNat]
    exact Takes.pure _

theorem read_operation_id_append (operationId : UInt64) :
    readOperationId (append64 operationId.toNat) = .ok (operationId, []) := by
  have hlength : (append64 operationId.toNat).length = 8 := length_big_endian 8 _
  rw [readOperationId, remaining_bind, if_pos hlength, append64, bind_ok (Takes.word 8 _).all,
    pure_apply, uint64_of_nat_mod]

theorem type_of_code_code (type : ConfChangeType) :
    ConfChangeType.ofCode type.code.toNat = some type := by
  cases type <;> rfl

theorem encode_conf_change_entry_ok (h : encodeConfChangeEntry entry = .ok bytes) :
    ∃ member target, appendChangedMember entry.type entry.member = .ok member ∧
      encodeClusterConfiguration entry.targetConfig = .ok target ∧
      (entry.type = .removeNode → entry.member.nodeId ≠ 0) ∧
      bytes = append32 confChangeMagic ++ [entry.type.code, jointCode entry.joint] ++
        member ++ append32 target.length ++ target ++ append64 entry.operationId.toNat ∧
      bytes.length ≤ maximumConfChangeSize := by
  obtain ⟨_, -, h⟩ := Barrier.except_bind_eq_ok.mp h
  split_ifs at h with hremove
  obtain ⟨member, hmember, h⟩ := Barrier.except_bind_eq_ok.mp h
  obtain ⟨target, htarget, h⟩ := Barrier.except_bind_eq_ok.mp h
  dsimp only at h
  split_ifs at h with hsize
  cases h
  exact ⟨member, target, hmember, htarget, fun htype hid => hremove ⟨htype, hid⟩, rfl,
    Nat.le_of_not_lt hsize⟩

/-- An encoded change decodes to its wire form. -/
theorem decode_encode_conf_change_entry (hcomplete : entry.type = .addNode → entry.member.Complete)
    (h : encodeConfChangeEntry entry = .ok bytes) :
    decodeConfChangeEntry bytes = .ok { entry with member := entry.wireMember } := by
  obtain ⟨member, target, hmember, htarget, hremove, hbytes, hsize⟩ :=
    encode_conf_change_entry_ok h
  have htargetRoom := (encode_cluster_configuration_length htarget).1
  have hlength : bytes.length = 18 + member.length + target.length := by
    simp only [hbytes, append64, append32, length_append, length_big_endian,
      length_cons, length_nil]
    omega
  have htargetFits : target.length < 256 ^ 4 :=
    Nat.lt_of_le_of_lt (by omega : target.length ≤ maximumConfChangeSize) (by decide)
  have hcodes : [entry.type.code, jointCode entry.joint] =
      [entry.type.code] ++ [jointCode entry.joint] := rfl
  rw [decodeConfChangeEntry, if_neg (by omega), hbytes, hcodes]
  simp only [append_assoc]
  rw [readConfChangeEntry, append32, bind_ok (Takes.word_of_lt (by decide) _), if_neg (by simp),
    bind_ok (Takes.byte _ _), bind_ok (Takes.byte _ _)]
  simp only [type_of_code_code]
  rw [bind_ok (takes_changed_member hcomplete hremove hmember _), remaining_bind,
    if_neg (by simp [append32]), append32, bind_ok (Takes.word_of_lt htargetFits _),
    remaining_bind, if_neg (by simp only [length_append]; omega),
    bind_ok (takes_cluster_configuration htarget _), bind_ok (read_operation_id_append _),
    pure_apply]
  cases entry.joint <;> rfl

/-! ## What can be written -/

/-- Both hosts of a member are short enough for their one-byte lengths. -/
def ClusterMember.Fits (member : ClusterMember) : Prop :=
  member.clientHost.length ≤ maximumHostSize ∧ member.peerHost.length ≤ maximumHostSize

theorem append_host_ok_iff {host : Bytes} (hhost : host ≠ []) :
    (∃ bytes, appendHost host = .ok bytes) ↔ host.length ≤ maximumHostSize := by
  rw [appendHost]
  by_cases hlong : maximumHostSize < host.length
  · simp [hlong]
  · simp [hhost, hlong, Nat.le_of_not_lt hlong]

theorem append_member_ok_iff (hcomplete : member.Complete) :
    (∃ bytes, appendMember member = .ok bytes) ↔ member.Fits := by
  obtain ⟨-, hclient, hpeer, -, -⟩ := hcomplete
  rw [ClusterMember.Fits, ← append_host_ok_iff hclient, ← append_host_ok_iff hpeer]
  constructor
  · rintro ⟨bytes, h⟩
    obtain ⟨client, hclient, h⟩ := Barrier.except_bind_eq_ok.mp h
    obtain ⟨peer, hpeer, -⟩ := Barrier.except_bind_eq_ok.mp h
    exact ⟨⟨client, hclient⟩, ⟨peer, hpeer⟩⟩
  · rintro ⟨⟨client, hclient⟩, ⟨peer, hpeer⟩⟩
    exact ⟨_, Barrier.except_bind_eq_ok.mpr
      ⟨client, hclient, Barrier.except_bind_eq_ok.mpr ⟨peer, hpeer, rfl⟩⟩⟩

theorem append_members_ok_iff (hcomplete : ∀ member ∈ members, member.Complete) :
    (∃ bytes, appendMembers members = .ok bytes) ↔ ∀ member ∈ members, member.Fits := by
  induction members with
  | nil => simp [appendMembers]
  | cons member others ih =>
    obtain ⟨hfirst, hothers⟩ := forall_mem_cons.mp hcomplete
    rw [forall_mem_cons, ← append_member_ok_iff hfirst, ← ih hothers]
    constructor
    · rintro ⟨bytes, h⟩
      obtain ⟨first, hfirst, h⟩ := Barrier.except_bind_eq_ok.mp h
      obtain ⟨more, hmore, -⟩ := Barrier.except_bind_eq_ok.mp h
      exact ⟨⟨first, hfirst⟩, ⟨more, hmore⟩⟩
    · rintro ⟨⟨first, hfirst⟩, ⟨more, hmore⟩⟩
      exact ⟨_, Barrier.except_bind_eq_ok.mpr
        ⟨first, hfirst, Barrier.except_bind_eq_ok.mpr ⟨more, hmore, rfl⟩⟩⟩

theorem validate_for_any (h : validateClusterConfiguration config localId = .ok ()) :
    validateClusterConfiguration config 0 = .ok () := by
  obtain ⟨hid, hmembers, hcount, hvalid, -⟩ := validate_cluster_configuration_ok h
  rw [validateClusterConfiguration, if_neg (by simp [hid, hmembers, hcount]),
    if_neg (by simp [hvalid]), if_pos (.inl rfl)]

theorem encode_cluster_configuration_ok_iff
    (hvalid : validateClusterConfiguration config 0 = .ok ()) :
    (∃ bytes, encodeClusterConfiguration config = .ok bytes) ↔
      ∀ member ∈ config.members, member.Fits := by
  rw [← append_members_ok_iff fun _ hmember => complete_of_validate hvalid hmember]
  constructor
  · rintro ⟨bytes, h⟩
    obtain ⟨_, -, h⟩ := Barrier.except_bind_eq_ok.mp h
    obtain ⟨members, hmembers, -⟩ := Barrier.except_bind_eq_ok.mp h
    exact ⟨members, hmembers⟩
  · rintro ⟨members, hmembers⟩
    exact ⟨_, Barrier.except_bind_eq_ok.mpr
      ⟨(), hvalid, Barrier.except_bind_eq_ok.mpr ⟨members, hmembers, rfl⟩⟩⟩

/-- A change is written when its hosts fit and a removal names a node. -/
theorem encode_conf_change_entry_ok_iff
    (hvalid : validateClusterConfiguration entry.targetConfig 0 = .ok ())
    (hadded : entry.type = .addNode → entry.member ∈ entry.targetConfig.members) :
    (∃ bytes, encodeConfChangeEntry entry = .ok bytes) ↔
      (∀ member ∈ entry.targetConfig.members, member.Fits) ∧
        (entry.type = .removeNode → entry.member.nodeId ≠ 0) := by
  rw [← encode_cluster_configuration_ok_iff hvalid]
  constructor
  · rintro ⟨bytes, h⟩
    obtain ⟨_, target, -, htarget, hremove, -⟩ := encode_conf_change_entry_ok h
    exact ⟨⟨target, htarget⟩, hremove⟩
  · rintro ⟨⟨target, htarget⟩, hremove⟩
    have hfits := (encode_cluster_configuration_ok_iff hvalid).mp ⟨target, htarget⟩
    have hchanged : ∃ member, appendChangedMember entry.type entry.member = .ok member ∧
        member.length ≤ 528 := by
      cases htype : entry.type with
      | addNode =>
        have hmember := hadded htype
        obtain ⟨bytes, hbytes⟩ :=
          (append_member_ok_iff (complete_of_validate hvalid hmember)).mpr (hfits _ hmember)
        exact ⟨bytes, hbytes, append_member_length hbytes⟩
      | removeNode => exact ⟨_, rfl, by simp [append64]⟩
    obtain ⟨member, hmember, hlength⟩ := hchanged
    have htargetLength := (encode_cluster_configuration_length htarget).2
    obtain ⟨bytes, hbytes⟩ : ∃ bytes, bytes = append32 confChangeMagic ++
        [entry.type.code, jointCode entry.joint] ++ member ++ append32 target.length ++ target ++
          append64 entry.operationId.toNat := ⟨_, rfl⟩
    have hsize : ¬ maximumConfChangeSize < bytes.length := by
      simp only [hbytes, append32, append64, length_append, length_big_endian,
        length_cons, length_nil, maximumConfChangeSize]
      omega
    have hnamed : ¬ (entry.type = .removeNode ∧ entry.member.nodeId = 0) :=
      fun h => hremove h.1 h.2
    refine ⟨bytes, Barrier.except_bind_eq_ok.mpr ⟨(), hvalid, ?_⟩⟩
    rw [if_neg hnamed]
    refine Barrier.except_bind_eq_ok.mpr ⟨member, hmember, Barrier.except_bind_eq_ok.mpr
      ⟨target, htarget, ?_⟩⟩
    dsimp only
    rw [← hbytes, if_neg hsize]

/-! ## Membership operations -/

/-- An added member is complete, a removed one is an id. -/
theorem member_of_validate (h : validateMembershipOperation operation = .ok ()) :
    (operation.type = .addNode → operation.member.Complete) ∧
      (operation.type = .removeNode → operation.member = { nodeId := operation.member.nodeId }) := by
  obtain ⟨id, type, ⟨nodeId, clientHost, clientPort, peerHost, peerPort⟩⟩ := operation
  rw [validateMembershipOperation] at h
  split at h
  · cases h
  rename_i hmetadata
  simp only [not_or] at hmetadata
  cases type with
  | addNode =>
    dsimp only at h
    split_ifs at h with hendpoint
    simp only [not_or] at hendpoint
    exact ⟨fun _ => ⟨hmetadata.2, hendpoint.1, hendpoint.2.2.2.1, hendpoint.2.2.1,
      hendpoint.2.2.2.2.2⟩, fun htype => by cases htype⟩
  | removeNode =>
    dsimp only at h
    split_ifs at h with hendpoint
    simp only [not_or, not_not] at hendpoint
    obtain ⟨rfl, rfl, rfl, rfl⟩ := hendpoint
    exact ⟨fun htype => (by cases htype), fun _ => rfl⟩

/-- A membership operation is read back. -/
theorem takes_membership_operation (h : encodeMembershipOperation operation = .ok bytes) :
    Takes decodeMembershipOperation bytes operation := by
  obtain ⟨_, hvalid, h⟩ := Barrier.except_bind_eq_ok.mp h
  obtain ⟨member, hmember, h⟩ := Barrier.except_bind_eq_ok.mp h
  cases h
  obtain ⟨hadded, hremoved⟩ := member_of_validate hvalid
  have hread : Takes (readOperationMember operation.type) member operation.member := by
    cases htype : operation.type with
    | addNode =>
      rw [htype] at hmember
      exact takes_member (hadded htype) hmember
    | removeNode =>
      rw [htype] at hmember
      cases hmember
      refine Takes.room (by simp [append64]) ((Takes.word 8 _).map ?_)
      rw [uint64_of_nat_mod, ← hremoved htype]
      exact Takes.pure _
  rw [append_assoc]
  refine Takes.room (by simp [append64]; omega) ((Takes.word 8 _).bind ((Takes.byte _).bind ?_))
  simp only [uint64_of_nat_mod, type_of_code_code]
  exact hread.map ((takes_refuse_invalid hvalid).map (Takes.pure _))

theorem encode_membership_operation_length (h : encodeMembershipOperation operation = .ok bytes) :
    9 ≤ bytes.length ∧ bytes.length ≤ 9 + 528 := by
  obtain ⟨-, -, h⟩ := Barrier.except_bind_eq_ok.mp h
  obtain ⟨member, hmember, h⟩ := Barrier.except_bind_eq_ok.mp h
  cases h
  have hlength : member.length ≤ 528 := by
    cases htype : operation.type with
    | addNode =>
      rw [htype] at hmember
      exact append_member_length hmember
    | removeNode =>
      rw [htype] at hmember
      cases hmember
      simp [append64]
  simp only [append64, length_append, length_big_endian, length_cons, length_nil]
  omega

/-! ## What comes behind -/

theorem stable_read_host : Stable readHost := by
  refine Stable.room (fun size more h => by omega) ((Stable.word 1).bind fun length => ?_)
  exact Stable.room (fun size more h => by omega) (Stable.bytes length)

theorem stable_read_member : Stable readMember := by
  refine Stable.room (fun size more h => by omega) ((Stable.word 8).bind fun nodeId =>
    stable_read_host.bind fun clientHost => stable_read_host.bind fun peerHost => ?_)
  refine Stable.room (fun size more h => by omega) ((Stable.word 4).bind fun clientPort =>
    (Stable.word 4).bind fun peerPort => ?_)
  exact Stable.ite (Stable.refuse _) (Stable.pure _)

theorem stable_read_members (count : Nat) : Stable (readMembers count) := by
  induction count with
  | zero => exact .pure _
  | succ count ih =>
    exact stable_read_member.bind fun member => ih.bind fun rest => .pure _

theorem stable_refuse_invalid (result : Except String Unit) : Stable (refuseInvalid result) := by
  cases result with
  | error message => exact .refuse message
  | ok _ => exact .pure ()

theorem stable_decode_cluster_configuration : Stable decodeClusterConfiguration := by
  refine Stable.room (fun size more h => by omega) ((Stable.word 8).bind fun configId =>
    (Stable.word 4).bind fun count => ?_)
  refine Stable.ite (Stable.refuse _) ((stable_read_members count).bind fun members => ?_)
  exact (stable_refuse_invalid _).bind fun _ => Stable.pure _

theorem stable_decode_membership_operation : Stable decodeMembershipOperation := by
  refine Stable.room (fun size more h => by omega) ((Stable.word 8).bind fun operationId =>
    (Stable.word 1).bind fun code => ?_)
  split
  · exact Stable.refuse _
  · rename_i type htype
    have hmember : Stable (readOperationMember type) := by
      cases type with
      | addNode => exact stable_read_member
      | removeNode =>
        exact Stable.room (fun size more h => by omega) ((Stable.word 8).bind fun nodeId =>
          Stable.pure _)
    exact hmember.bind fun member => (stable_refuse_invalid _).bind fun _ => Stable.pure _

end DistributedKV
