import DistributedKV.Cluster.Network
import DistributedKV.Raft.Node.Entries

/-!
# The entries of a cluster

A rule for log entries that the local calls obey is obeyed by every log, every image and every
packet in every run, whatever is delivered, lost or duplicated and wherever nodes stop and start
again.
-/

namespace DistributedKV

variable {policy : EntryPolicy} {deployment : Deployment} {cluster following : Cluster}

/-- A node constructed over legal images is obedient. -/
theorem RaftNode.Obeys.of_construct {config : NodeConfig} {barrier : RaftPersistence}
    {node : RaftNode} (hrun : RaftNode.construct config (some barrier) = .ok node)
    (himages : ∀ image ∈ barrier.saved, image.Obeys policy) : node.Obeys policy := by
  obtain ⟨hpersistence, hrole, hdurable⟩ := RaftNode.construct_durable hrun
  refine ⟨?_, ?_, fun h => absurd hrole h⟩
  · rcases hdurable with ⟨-, hlog, -⟩ | ⟨hlog, hterm, -⟩
    · rw [hlog]
      intro entry hentry
      rw [List.mem_singleton.mp hentry]
      exact policy.sentinel _
    · rw [hterm, RaftLog.entries_restore hlog]
      intro entry hentry
      -- An image that has entries is one of the saved ones.
      cases hsaved : barrier.saved with
      | nil => simp [RaftPersistence.latest, hsaved] at hentry
      | cons image older =>
        have hlatest : barrier.latest = image := by simp [RaftPersistence.latest, hsaved]
        rw [hlatest] at hentry ⊢
        exact himages image (by simp [hsaved]) entry hentry
  · rw [RaftNode.saved, hpersistence]
    exact himages

theorem RaftNode.Obeys.of_unsaved {config : NodeConfig} {node : RaftNode}
    (hrun : RaftNode.construct config none = .ok node) : node.Obeys policy := by
  obtain ⟨-, rfl⟩ := RaftNode.construct_cases hrun
  refine ⟨fun entry hentry => ?_, fun image himage => ?_, fun h => absurd rfl h⟩
  · rw [List.mem_singleton.mp hentry]
    exact policy.sentinel _
  · cases himage

namespace Cluster

/-- Every host and every packet is obedient. -/
structure Obeys (policy : EntryPolicy) (deployment : Deployment) (cluster : Cluster) : Prop where
  nodes : ∀ host ∈ deployment.hosts, (cluster.node host).Obeys policy
  packets : ∀ packet ∈ cluster.sent, packet.payload.Obeys policy

theorem Obeys.update (hobeys : cluster.Obeys policy deployment) {host : NodeId} {node : RaftNode}
    (hnode : node.Obeys policy) {added : List Packet}
    (hadded : ∀ packet ∈ added, packet.payload.Obeys policy) :
    Obeys policy deployment
      { node := Function.update cluster.node host node, sent := added ++ cluster.sent } := by
  refine ⟨fun other hother => ?_, fun packet hpacket => ?_⟩
  · rcases eq_or_ne other host with rfl | hne
    · simpa using hnode
    · simpa [hne] using hobeys.nodes other hother
  · rcases List.mem_append.mp hpacket with hnew | hold
    · exact hadded packet hnew
    · exact hobeys.packets packet hold

/-- A restart over legal images keeps the cluster obedient. -/
theorem Obeys.restarted (hobeys : cluster.Obeys policy deployment) {host : NodeId}
    {saved : List RaftPersistentState} (himages : ∀ image ∈ saved, image.Obeys policy)
    (hrun : cluster.restarted deployment host saved = some following) :
    following.Obeys policy deployment := by
  rw [Cluster.restarted, RaftNode.restart] at hrun
  split at hrun
  · cases hrun
  rename_i node hnode
  cases hrun
  have hnothing : ∀ packet ∈ ([] : List Packet), packet.payload.Obeys policy := by simp
  cases hpersistence : (cluster.node host).persistence with
  | none =>
    rw [hpersistence] at hnode
    exact hobeys.update (RaftNode.Obeys.of_unsaved hnode) hnothing
  | some persistence =>
    rw [hpersistence] at hnode
    exact hobeys.update (RaftNode.Obeys.of_construct hnode himages) hnothing

/-- What a stimulus leads to brings legal entries only. -/
theorem Obeys.target (hobeys : cluster.Obeys policy deployment) {stimulus : Stimulus}
    (hcall : ∀ host operation, stimulus = .call host operation → operation.Obeys policy)
    {host : NodeId} {operation : Operation}
    (htarget : cluster.target stimulus = some (host, operation)) : operation.Obeys policy := by
  cases stimulus with
  | call caller call =>
    cases htarget
    exact hcall host operation rfl
  | deliver packet =>
    rw [Cluster.target] at htarget
    split_ifs at htarget with hsent
    obtain ⟨other, hother, heq⟩ := Option.map_eq_some_iff.mp htarget
    obtain ⟨-, rfl⟩ := Prod.mk.inj heq
    have hpacket := hobeys.packets packet hsent
    rw [Packet.operation] at hother
    split at hother
    · cases hother
      exact not_false
    · cases hother
      exact not_false
    · rename_i request hrequest
      cases hother
      rw [hrequest] at hpacket
      exact hpacket
    · cases hother
      exact not_false
    · cases hother
    · cases hother

/-- Every event keeps the cluster obedient. -/
theorem Obeys.step (hobeys : cluster.Obeys policy deployment) {allowed : Operation → Prop}
    (hallowed : ∀ operation, allowed operation → operation.Obeys policy)
    (hnext : cluster.Next deployment allowed following) : following.Obeys policy deployment := by
  obtain ⟨event, hwithin, hstep⟩ := hnext
  cases event with
  | run stimulus =>
    simp only [Cluster.step] at hstep
    split at hstep
    · cases hstep
    rename_i host operation htarget
    split_ifs at hstep with hhost
    split at hstep
    · cases hstep
    rename_i outbound final hrun
    cases hstep
    have hoperation := hobeys.target (fun _ _ hcall => hallowed _ (by subst hcall; exact hwithin))
      htarget
    have hafter := (hobeys.nodes host hhost).after hoperation
    rw [RaftNode.after, hrun] at hafter
    refine hobeys.update hafter fun packet hpacket => ?_
    obtain ⟨rpc, hrpc, rfl⟩ := List.mem_map.mp hpacket
    exact hafter.sends (RaftNode.ensures_sends operation outbound final hrun) hrpc
  | crash stimulus lost =>
    simp only [Cluster.step] at hstep
    split at hstep
    · cases hstep
    rename_i host operation htarget
    split_ifs at hstep with hcondition
    have hoperation := hobeys.target (fun _ _ hcall => hallowed _ (by subst hcall; exact hwithin))
      htarget
    have hafter := (hobeys.nodes host hcondition.1).after hoperation
    exact hobeys.restarted (fun image himage =>
      hafter.images image (List.mem_of_mem_drop himage)) hstep
  | restart host =>
    simp only [Cluster.step] at hstep
    split_ifs at hstep with hhost
    exact hobeys.restarted (hobeys.nodes host hhost).images hstep

theorem Initial.obeys (hinitial : cluster.Initial deployment) :
    cluster.Obeys policy deployment := by
  refine ⟨fun host hhost => ?_, by simp [hinitial.1]⟩
  exact RaftNode.Obeys.of_construct (hinitial.2 host hhost) (by simp [RaftPersistence.reliable])

end Cluster

end DistributedKV
