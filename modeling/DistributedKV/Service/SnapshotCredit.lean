import DistributedKV.Service.InstallSnapshot
import DistributedKV.Service.Safety
import DistributedKV.Service.ServiceSteps

/-!
# Crediting a peer with a snapshot

A leader credits a peer with the boundary of a transfer when a success response arrives and the
file has been sent to its end. Responses say neither which chunk nor which boundary they answer,
so the network is tracked with the request that each response answers. A peer that answered the
last chunk of a boundary keeps a log that starts no earlier (`Tracked.Run.installed`), so the
credit is right when the response answers the last chunk of the transfer it is counted for
(`credit_installed`), and wrong when it is late (`late_credit`).
-/

namespace DistributedKV

open Barrier RaftNode Function

namespace RaftNode

/-- Only snapshot operations move the boundary. -/
theorem Micro.boundary {operation : Operation} {before after : RaftNode}
    (hmicro : Micro operation before after) (hplain : ¬ operation.Snapshot) :
    after.log.boundary = before.log.boundary := by
  cases hmicro with
  | prepare h =>
    cases h with
    | stepDown term leader hmessage hterm =>
      rw [becomeFollower, resetElectionTimer]
      split_ifs <;> rfl
    | merge source request log hoperation hrole hterm hprevious hlog =>
      obtain ⟨-, -, hboundary, -, -⟩ := RaftLog.append_from_spec hlog
      obtain ⟨hkept, -⟩ := { before with log }.rollback_pending_frame before.pendingChange
      exact (congrArg RaftLog.boundary hkept).trans hboundary
    | cutLog log commit hsnapshot hcut => exact absurd hsnapshot hplain
    | save hsave => cases hsave; rfl
    | _ => rfl
  | commit h => cases h <;> rfl
  | apply h =>
    cases h with
    | save hsave => cases hsave; rfl
    | _ => rfl

/-- The match index of a peer is the one from before, or lies within a bound. -/
def Raises (peer : NodeId) (bound : Nat) (before after : RaftNode) : Prop :=
  ∀ matched, after.matchIndex peer = some matched →
    before.matchIndex peer = some matched ∨ matched ≤ bound

section Raises

variable {peer : NodeId} {bound : Nat} {operation : Operation} {before middle after : RaftNode}

theorem Raises.of_eq (hsame : after.matchIndex = before.matchIndex) :
    Raises peer bound before after := by
  intro matched hmatched
  rw [hsame] at hmatched
  exact .inl hmatched

theorem Raises.trans (hfirst : Raises peer bound before middle)
    (hsecond : Raises peer bound middle after) : Raises peer bound before after := by
  intro matched hmatched
  rcases hsecond matched hmatched with hkept | hbound
  · exact hfirst matched hkept
  · exact .inr hbound

theorem Raises.of_update {other : NodeId} {value : Nat}
    (hafter : after.matchIndex = update before.matchIndex other (some value))
    (hvalue : other = peer → before.matchIndex peer = some value ∨ value ≤ bound) :
    Raises peer bound before after := by
  intro matched hmatched
  rw [hafter] at hmatched
  by_cases hpeer : peer = other
  · subst hpeer
    rw [update_self, Option.some.injEq] at hmatched
    exact hmatched ▸ hvalue rfl
  · rw [update_of_ne hpeer] at hmatched
    exact .inl hmatched

/-- No match index is raised past what is credited. -/
theorem Micro.raises (hmicro : Micro operation before after)
    (hcredits : ∀ index, operation.Credits peer index → index ≤ bound) :
    Raises peer bound before after := by
  cases hmicro with
  | prepare h =>
    cases h with
    | stepDown term leader hmessage hterm =>
      intro matched hmatched
      rw [becomeFollower, resetElectionTimer] at hmatched
      cases hmatched
    | takeOver helects hrole hquorum =>
      intro matched hmatched
      change before.initialCursors 0 peer = some matched at hmatched
      rw [initialCursors] at hmatched
      split_ifs at hmatched
      cases hmatched
      exact .inr (Nat.zero_le _)
    | credit other index next matched hother hrole hnext hmatch hindex =>
      refine .of_update rfl ?_
      rintro rfl
      rcases le_total index matched with hle | hle
      · rw [max_eq_left hle]
        exact .inl hmatch
      · rw [max_eq_right hle]
        exact .inr (hcredits index hother)
    | merge source request log hoperation hrole hterm hprevious hlog =>
      refine .of_eq ?_
      unfold rollbackPending
      split
      · split_ifs
        · rfl
        · rw [dropPending]
          split_ifs <;> rfl
      · rfl
    | addLearner learner hoperation hrole hzero hmember =>
      exact .of_update rfl fun _ => .inr (Nat.zero_le _)
    | save hsave =>
      cases hsave
      exact .of_eq rfl
    | _ => exact .of_eq rfl
  | commit h => cases h <;> exact .of_eq rfl
  | apply h =>
    cases h with
    | save hsave =>
      cases hsave
      exact .of_eq rfl
    | _ => exact .of_eq rfl

end Raises

end RaftNode

theorem ServiceCall.Runs.plain {call : ServiceCall} {operation : Operation}
    (hruns : call.Runs operation) : ¬ operation.Snapshot := by
  cases call with
  | submit command =>
    obtain ⟨encoded, -, rfl⟩ := hruns
    exact id
  | handleInstallSnapshotResponse source response =>
    obtain rfl | ⟨index, rfl⟩ | ⟨answer, -, rfl⟩ := hruns
    · exact id
    · exact id
    · exact id
  | takeResult index => exact absurd hruns id
  | tryPublishSnapshot threshold => exact absurd hruns id
  | _ =>
    cases hruns
    exact id

namespace RaftKVService

/-! ## The start of the log -/

/-- The log starts no later than what is applied. -/
def StartsApplied (service : RaftKVService) : Prop :=
  service.raftNode.log.firstIndex ≤ service.stateMachine.lastApplied

/-- The log starts later, but not past what is applied. -/
theorem Micro.starts_applied {call : ServiceCall} {before after : RaftKVService}
    (hmicro : Micro call before after) (hstarts : before.StartsApplied) :
    before.raftNode.log.firstIndex ≤ after.raftNode.log.firstIndex ∧ after.StartsApplied := by
  rw [StartsApplied] at hstarts ⊢
  cases hmicro with
  | node operation node hruns hnode =>
    have hfirst : node.log.firstIndex = before.raftNode.log.firstIndex :=
      congrArg LogEntry.index (hnode.boundary hruns.plain)
    exact ⟨hfirst.ge, hfirst.trans_le hstarts⟩
  | apply _ hlater hnext =>
    obtain ⟨entry, result, -, happly, hframed⟩ := apply_next_inv hnext
    rw [hframed.raftNode, StateMachine.apply_last_applied happly]
    exact ⟨le_rfl, hstarts.trans (Nat.le_succ _)⟩
  | compact threshold boundaryTerm log hcall hpublishes hlog =>
    have hfirst := (RaftLog.compact_to_ends hlog).1
    exact ⟨hstarts.trans hfirst.ge, hfirst.le⟩
  | restore source request snapshot machine hcall hrole hindex hnew hmachine =>
    have happlied : machine.lastApplied = request.lastIncludedIndex :=
      (StateMachine.restore_last_applied hmachine).trans hindex
    exact ⟨le_rfl, by dsimp only; omega⟩
  | replace source request boundaryTerm hcall hrole happlied =>
    exact ⟨hstarts.trans happlied.le, happlied.ge⟩
  | save after hsave =>
    cases hsave
    exact ⟨le_rfl, hstarts⟩
  | _ => exact ⟨le_rfl, hstarts⟩

theorem perform_starts_applied {call : ServiceCall} {service final : RaftKVService}
    {answer : List OutboundRpc × String} (hrun : perform call service = .ok answer final)
    (hstarts : service.StartsApplied) :
    service.raftNode.log.firstIndex ≤ final.raftNode.log.firstIndex ∧ final.StartsApplied := by
  have hstep : ∀ first second, Micro call first second →
      service.raftNode.log.firstIndex ≤ first.raftNode.log.firstIndex ∧ first.StartsApplied →
      service.raftNode.log.firstIndex ≤ second.raftNode.log.firstIndex ∧ second.StartsApplied := by
    rintro first second hmicro ⟨hlater, hfirst⟩
    obtain ⟨hmoved, hsecond⟩ := hmicro.starts_applied hfirst
    exact ⟨hlater.trans hmoved, hsecond⟩
  exact invariant_of_perform hstep hrun ⟨le_rfl, hstarts⟩

/-! ## What a success response means -/

variable {service : RaftKVService} {request : InstallSnapshotRequest}

/-- A success means the image starts the log. -/
theorem ensures_install_success (snapshot : StateMachineSnapshot)
    {response : InstallSnapshotResponse} (hresponse : response.success = false) :
    Ensures (installSnapshot snapshot response) service fun answer final =>
      answer.1.success = true →
        snapshot.lastIncludedIndex ≤ final.raftNode.log.firstIndex := by
  rw [installSnapshot]
  split
  · exact .pure fun h => absurd h (by simp [hresponse])
  have hreplace : ∀ node : RaftNode,
      Ensures (replaceLogWithSnapshotBoundary snapshot.lastIncludedIndex
        snapshot.lastIncludedTerm) node fun answer final => answer = .ok () →
          final.log.firstIndex = snapshot.lastIncludedIndex := by
    intro node
    rw [replaceLogWithSnapshotBoundary]
    refine .get_bind ?_
    split
    · exact .pure fun h => by cases h
    · rename_i log hlog
      have hentries := RaftLog.entries_restore hlog
      refine .set_bind (.bind ensures_recorded ?_)
      rintro - final rfl
      refine .pure fun _ => ?_
      exact congrArg LogEntry.index (List.cons.inj hentries).1
  refine .modify_bind (.bind (ensures_on_node (hreplace _)) ?_)
  rintro answer final ⟨node, hnode, rfl⟩
  cases answer with
  | error error => exact .pure fun h => absurd h (by simp [hresponse])
  | ok _ =>
    refine .modify_bind (.bind ensures_apply_committed fun answer final hfinal => ?_)
    have hfirst : snapshot.lastIncludedIndex ≤ final.raftNode.log.firstIndex := by
      rw [hfinal, caught_up_framed.raftNode]
      exact (hnode rfl).ge
    cases answer with
    | error error => exact .pure fun _ => hfirst
    | ok _ => exact .pure fun _ => hfirst

/-- A last chunk answered with success starts the log. -/
theorem ensures_answered (hdone : request.done = true) :
    Ensures (handleInstallSnapshot request) service fun answer final =>
      answer.1.success = true →
        request.lastIncludedIndex ≤ final.raftNode.log.firstIndex := by
  rw [handleInstallSnapshot]
  refine .get_bind ?_
  dsimp only
  split
  · exact .pure fun h => by cases h
  refine .bind_last fun accepted final => .get_bind ?_
  split
  · exact .pure fun h => by cases h
  split
  · rename_i hcovers
    exact .pure fun _ => hcovers.1.le
  rw [receiveChunk]
  refine .get_bind ?_
  split
  · exact .pure fun h => by cases h
  split
  · exact .set_bind (.pure fun h => by cases h)
  rename_i receiver htaken
  obtain ⟨-, rfl⟩ := SnapshotFileReceiver.append_chunk_eq_ok.mp htaken
  rw [if_neg (by simp [hdone])]
  split
  · exact .set_bind (.pure fun h => by cases h)
  rename_i store snapshot hfile
  have hindex : snapshot.lastIncludedIndex = request.lastIncludedIndex :=
    (SnapshotFileReceiver.finish_and_load_eq_ok.mp hfile).1.2.2.1
  rw [← hindex]
  exact .set_bind (ensures_install_success snapshot rfl)

/-! ## Crediting -/

theorem Micro.raises_idle {first second : RaftKVService} {peer : NodeId} {bound : Nat}
    (hmicro : Micro (.takeResult 0) first second) :
    RaftNode.Raises peer bound first.raftNode second.raftNode := by
  cases hmicro with
  | node operation after hruns => exact hruns.elim
  | apply _ _ hnext =>
    obtain ⟨-, -, -, -, hframed⟩ := apply_next_inv hnext
    exact .of_eq (by rw [hframed.raftNode])
  | save after hsave =>
    cases hsave
    exact .of_eq rfl
  | _ => exact .of_eq rfl

/-- A response raises the match index to its transfer. -/
theorem traces_response_raises {source : NodeId} {response : InstallSnapshotResponse} {bound : Nat}
    (hbound : response.success = true → ∀ send, service.snapshotSends source = some send →
      send.lastIncludedIndex ≤ bound) :
    Traces (fun first second => RaftNode.Raises source bound first.raftNode second.raftNode)
      (handleInstallSnapshotResponse source response) service fun _ _ => True := by
  have hnode : ∀ {α : Type} {service : RaftKVService} {program : RaftM α} {operation : Operation},
      RaftNode.Acts operation program service.raftNode →
      (∀ index, operation.Credits source index → index ≤ bound) →
      Traces (fun first second => RaftNode.Raises source bound first.raftNode second.raftNode)
        (onNode program) service fun _ final => final.snapshotSends = service.snapshotSends := by
    intro α service program operation hacts hcredits
    refine (traces_lift (fun _ _ hmicro => hmicro.raises hcredits)
      (traces_of_phased hacts)).mono ?_
    rintro _ _ ⟨node, -, rfl⟩
    rfl
  have hsends : ∀ service : RaftKVService,
      Traces (fun first second => RaftNode.Raises source bound first.raftNode second.raftNode)
        (sendNextChunk source) service fun _ _ => True := fun service =>
    (traces_send_next_chunk source).relax fun _ _ => Micro.raises_idle
  rw [handleInstallSnapshotResponse]
  have hobserve : RaftNode.Acts (.observeHigherTerm response.term)
      (observeHigherTerm response.term) service.raftNode :=
    .of_traces (traces_observe_higher_term id)
  refine .bind (hnode hobserve fun _ hcredits => hcredits.elim) ?_
  rintro - observed hobserved
  refine .get_bind ?_
  split
  · exact .pure trivial
  split
  · exact .pure trivial
  rename_i send hsend
  rw [hobserved] at hsend
  split
  · exact .set_bind (.single (.of_eq rfl)) (hsends _)
  rename_i hsuccess
  rw [Bool.not_eq_false] at hsuccess
  have hcredited := hbound hsuccess send hsend
  split
  · exact .pure trivial
  split
  · exact hsends _
  dsimp only
  refine .set_bind (.single (.of_eq rfl)) (.bind
    (hnode (phased_on_install_snapshot_success rfl) ?_) ?_)
  · rintro index ⟨-, rfl⟩
    exact hcredited
  rintro - credited -
  refine .get_bind ?_
  rw [handleAppendEntriesResponse]
  refine .bind (hnode (phased_handle_append_entries_response rfl) ?_)
    fun outbound _ _ => (traces_settle Micro.settles outbound).relax fun _ _ => Micro.raises_idle
  rintro index ⟨-, rfl⟩
  exact hcredited

/-- The call raises it no further. -/
theorem raises_after_response {source : NodeId} {response : InstallSnapshotResponse} {bound : Nat}
    (hbound : response.success = true → ∀ send, service.snapshotSends source = some send →
      send.lastIncludedIndex ≤ bound) :
    RaftNode.Raises source bound service.raftNode
      (service.after (.handleInstallSnapshotResponse source response)).raftNode := by
  obtain ⟨hreturn, hthrow⟩ := traces_response_raises hbound
  have hsteps : ∀ final, Relation.ReflTransGen (fun first second : RaftKVService =>
      RaftNode.Raises source bound first.raftNode second.raftNode) service final →
      RaftNode.Raises source bound service.raftNode final.raftNode := fun final hsteps =>
    invariant_of_steps (I := fun last : RaftKVService =>
      RaftNode.Raises source bound service.raftNode last.raftNode)
      (fun _ _ hstep hfirst => hfirst.trans hstep) hsteps (.of_eq rfl)
  rw [after, perform]
  split
  · rename_i answer final hrun
    exact hsteps final (hreturn answer final hrun).1
  · rename_i error final hrun
    exact hsteps final (hthrow error final hrun)

end RaftKVService

/-! ## Runs that keep track of what responses answer -/

/-- A call that a service makes on its own, not on a message. -/
def ServiceCall.Local : ServiceCall → Prop
  | .tick _ | .submit _ | .takeResult _ | .tryPublishSnapshot _ | .proposeConfChange .. |
    .addLearner _ => True
  | _ => False

/-- The request for a snapshot that a stimulus delivers. -/
def ServiceStimulus.snapshotRequest : ServiceStimulus → Option InstallSnapshotRequest
  | .call _ _ => none
  | .deliver packet =>
    match packet.payload with
    | .installSnapshot request => some request
    | _ => none

/-- A cluster, with the request that each response to a snapshot request answers. -/
structure Tracked where
  cluster : ServiceCluster
  answers : List (Packet × InstallSnapshotRequest)

namespace Tracked

/-- The packets that a step has sent. -/
def newPackets (cluster following : ServiceCluster) : List Packet :=
  following.sent.take (following.sent.length - cluster.sent.length)

/-- One stimulus; what is sent on a snapshot request answers it. -/
def step (deployment : ServiceDeployment) (tracked : Tracked) (stimulus : ServiceStimulus) :
    Option Tracked :=
  match tracked.cluster.step deployment (.run stimulus) with
  | none => none
  | some following =>
    some
      { cluster := following
        answers :=
          match stimulus.snapshotRequest with
          | none => tracked.answers
          | some request =>
            (newPackets tracked.cluster following).map (fun packet => (packet, request)) ++
              tracked.answers }

/-- The cluster is initial, so nothing was answered. -/
def Initial (deployment : ServiceDeployment) (tracked : Tracked) : Prop :=
  tracked.cluster.Initial deployment ∧ tracked.answers = []

/-- One stimulus whose call, if it is one, a service makes on its own. -/
def Next (deployment : ServiceDeployment) (tracked following : Tracked) : Prop :=
  ∃ stimulus, ServiceEvent.Within ServiceCall.Local (.run stimulus) ∧
    tracked.step deployment stimulus = some following

/-- A run without restarts. Packets may be delivered in any order, repeatedly or never. -/
abbrev Run (deployment : ServiceDeployment) (run : Nat → Tracked) : Prop :=
  EventRun.Run (Initial deployment) (Next deployment) run

variable {deployment : ServiceDeployment} {tracked following : Tracked} {run : Nat → Tracked}

/-- Logs start where entries are applied, and a peer that answered the last chunk of a file with
success has a log that starts at its boundary or later. -/
structure Sound (deployment : ServiceDeployment) (tracked : Tracked) : Prop where
  starts : ∀ host ∈ deployment.hosts, (tracked.cluster.service host).StartsApplied
  answered : ∀ packet request, (packet, request) ∈ tracked.answers →
    packet.source ∈ deployment.hosts ∧
      ∀ response, packet.payload = .installSnapshotResponse response → response.success = true →
        request.done = true → request.lastIncludedIndex ≤
          (tracked.cluster.service packet.source).raftNode.log.firstIndex

theorem Initial.sound (hinitial : tracked.Initial deployment) : tracked.Sound deployment := by
  refine ⟨fun host hhost => ?_, fun packet request hanswer => ?_⟩
  · obtain ⟨node, hnode, hservice⟩ := RaftKVService.construct_fresh (hinitial.1.2 host hhost)
    have hfirst : node.log.firstIndex = 0 := by
      rcases (construct_durable hnode).durable with ⟨-, hlog, -⟩ | ⟨hlog, -⟩
      · rw [hlog]
        rfl
      · cases hlog
    rw [RaftKVService.StartsApplied, hservice]
    exact hfirst.le
  · rw [hinitial.2] at hanswer
    cases hanswer

/-- A step is a call of one service that returns. -/
theorem step_cases {stimulus : ServiceStimulus}
    (hstep : tracked.step deployment stimulus = some following) :
    ∃ host ∈ deployment.hosts, ∃ call outbound error service,
      tracked.cluster.target stimulus = some (host, call) ∧
      RaftKVService.perform call (tracked.cluster.service host) = .ok (outbound, error) service ∧
      following.cluster = tracked.cluster.returned host service outbound ∧
      following.answers =
        match stimulus.snapshotRequest with
        | none => tracked.answers
        | some request =>
          (outbound.map fun rpc => ({ source := host, destination := rpc.destination
                                      payload := rpc.payload }, request)) ++
            tracked.answers := by
  rw [step] at hstep
  split at hstep
  · cases hstep
  rename_i cluster hcluster
  cases hstep
  rw [ServiceCluster.step] at hcluster
  split at hcluster
  · cases hcluster
  rename_i host call htarget
  split at hcluster
  · rename_i hhost
    split at hcluster
    · cases hcluster
    · rename_i outbound error service hperform
      cases hcluster
      refine ⟨host, hhost, call, outbound, error, service, htarget, hperform, rfl, ?_⟩
      simp [newPackets, ServiceCluster.returned, comp_def]
  · cases hcluster

theorem perform_install_snapshot {source : NodeId} {request : InstallSnapshotRequest}
    {service final : RaftKVService} {outbound : List OutboundRpc} {error : String}
    (hperform : RaftKVService.perform (.handleInstallSnapshot source request) service =
      .ok (outbound, error) final) :
    ∃ response, outbound =
        [{ destination := source, payload := .installSnapshotResponse response }] ∧
      RaftKVService.handleInstallSnapshot request service = .ok (response, error) final := by
  rw [RaftKVService.perform] at hperform
  cases hhandle : RaftKVService.handleInstallSnapshot request service with
  | ok answer middle =>
    rw [bind_of_ok hhandle] at hperform
    cases hperform
    exact ⟨answer.1, rfl, rfl⟩
  | error thrown middle =>
    rw [bind_of_error hhandle] at hperform
    cases hperform

/-- A step keeps what was answered sound. -/
theorem Sound.step (hsound : tracked.Sound deployment) (hnext : Next deployment tracked following) :
    following.Sound deployment := by
  obtain ⟨stimulus, -, hstep⟩ := hnext
  obtain ⟨host, hhost, call, outbound, error, service, htarget, hperform, hcluster, hanswers⟩ :=
    step_cases hstep
  obtain ⟨hlater, hstarts⟩ := RaftKVService.perform_starts_applied hperform (hsound.starts host hhost)
  have hservices : following.cluster.service = update tracked.cluster.service host service :=
    congrArg ServiceCluster.service hcluster
  -- the log of every service starts where it did, or later
  have hfirst : ∀ peer, (tracked.cluster.service peer).raftNode.log.firstIndex ≤
      (following.cluster.service peer).raftNode.log.firstIndex := by
    intro peer
    rw [hservices]
    by_cases hpeer : peer = host
    · subst hpeer
      rw [update_self]
      exact hlater
    · rw [update_of_ne hpeer]
  have hold : ∀ packet request, (packet, request) ∈ tracked.answers →
      packet.source ∈ deployment.hosts ∧
        ∀ response, packet.payload = .installSnapshotResponse response → response.success = true →
          request.done = true → request.lastIncludedIndex ≤
            (following.cluster.service packet.source).raftNode.log.firstIndex := by
    intro packet request hanswer
    obtain ⟨hsource, hinstalled⟩ := hsound.answered packet request hanswer
    exact ⟨hsource, fun response hpayload hsuccess hdone =>
      (hinstalled response hpayload hsuccess hdone).trans (hfirst _)⟩
  refine ⟨fun peer hpeer => ?_, fun packet request hanswer => ?_⟩
  · rw [hservices]
    by_cases hsame : peer = host
    · subst hsame
      rw [update_self]
      exact hstarts
    · rw [update_of_ne hsame]
      exact hsound.starts peer hpeer
  · rw [hanswers] at hanswer
    split at hanswer
    · exact hold packet request hanswer
    rename_i delivered hdelivered
    rcases List.mem_append.mp hanswer with hnew | hwas
    · obtain ⟨rpc, hrpc, heq⟩ := List.mem_map.mp hnew
      cases heq
      refine ⟨hhost, fun response hpayload hsuccess hdone => ?_⟩
      obtain ⟨source, hcall⟩ : ∃ source, call = .handleInstallSnapshot source request := by
        cases stimulus with
        | call peer given => cases hdelivered
        | deliver packet =>
          obtain ⟨source, destination, payload⟩ := packet
          cases payload with
          | installSnapshot asked =>
            cases hdelivered
            rw [ServiceCluster.target] at htarget
            split at htarget
            · cases htarget
              exact ⟨source, rfl⟩
            · cases htarget
          | _ => cases hdelivered
      subst hcall
      obtain ⟨answer, houtbound, hhandle⟩ := perform_install_snapshot hperform
      rw [houtbound, List.mem_singleton] at hrpc
      subst hrpc
      cases hpayload
      rw [hservices, update_self]
      exact RaftKVService.ensures_answered hdone _ _ hhandle hsuccess
    · exact hold packet request hwas

theorem Run.installed (hrun : Run deployment run) (k : Nat) : (run k).Sound deployment :=
  hrun.invariant (fun _ hinitial => hinitial.sound) (fun _ _ hnext hsound => hsound.step hnext) k

/-- In every run, when a response of a peer to the last chunk of a file arrives at a leader whose
transfer to the peer has the boundary of this file, the match index of the peer is then what it was,
or the peer has applied it. -/
theorem credit_installed (hrun : Run deployment run) (k : Nat) {packet : Packet}
    {request : InstallSnapshotRequest} {response : InstallSnapshotResponse} {matched : Nat}
    (hanswer : (packet, request) ∈ (run k).answers)
    (hpayload : packet.payload = .installSnapshotResponse response)
    (hlast : request.done = true)
    (htransfer : ∀ send,
      ((run k).cluster.service packet.destination).snapshotSends packet.source = some send →
      send.lastIncludedIndex = request.lastIncludedIndex)
    (hmatched : (((run k).cluster.service packet.destination).after
      (.handleInstallSnapshotResponse packet.source response)).raftNode.matchIndex packet.source =
        some matched) :
    ((run k).cluster.service packet.destination).raftNode.matchIndex packet.source =
        some matched ∨
      matched ≤ ((run k).cluster.service packet.source).stateMachine.lastApplied := by
  obtain ⟨hsource, hanswered⟩ := (hrun.installed k).answered packet request hanswer
  refine RaftKVService.raises_after_response (fun hsuccess send hsend => ?_) matched hmatched
  calc send.lastIncludedIndex = request.lastIncludedIndex := htransfer send hsend
    _ ≤ ((run k).cluster.service packet.source).raftNode.log.firstIndex :=
        hanswered response hpayload hsuccess hlast
    _ ≤ _ := (hrun.installed k).starts packet.source hsource

end Tracked

/-! ### A late response -/

/-- Three services of which service 1 sends snapshots. -/
def threeSenders : ServiceDeployment where
  toDeployment := threeVoters
  sendsSnapshots host := host == 1

/-- The delivery of a payload. -/
def arrives (source destination : NodeId) (payload : RpcPayload) : ServiceStimulus :=
  .deliver { source, destination, payload }

/-- The file of an empty store at index 1, in one chunk. -/
def emptyFile : InstallSnapshotRequest where
  term := 1
  leaderId := 1
  lastIncludedIndex := 1
  lastIncludedTerm := 1
  offset := 0
  data := ((FileSnapshotStore.save (emptySnapshot 1)).toOption.bind
    FileSnapshotStore.file).getD []
  done := true

/-- The response of service 2 to the file at index 1. -/
def installedFirst : Packet where
  source := 2
  destination := 1
  payload := .installSnapshotResponse { term := 1, success := true }

/-- Service 1 is elected with the vote of service 2, commits a no-op with service 3, publishes it
and sends the file to service 2, which installs it. Before the response arrives, service 1 commits
`SET x 1` with service 3, publishes again and starts to send the new file. Then the response arrives. -/
def twoPublications : List ServiceStimulus :=
  [.call 1 (.tick 300),
    arrives 1 2 (.requestVote { term := 1, candidateId := 1, lastLogIndex := 0, lastLogTerm := 0 }),
    arrives 2 1 (.requestVoteResponse { term := 1, electionTerm := 1, voteGranted := true }),
    arrives 1 3 (.appendEntries
      { term := 1, leaderId := 1, previousLogIndex := 0, previousLogTerm := 0
        entries := [{ index := 1, term := 1, type := .noOp, command := [] }], leaderCommit := 0 }),
    arrives 3 1 (.appendEntriesResponse
      { term := 1, success := true, requestPreviousLogIndex := 0, requestEntryCount := 1
        matchIndex := 1, conflictIndex := 2 }),
    .call 1 (.tryPublishSnapshot 1),
    .call 1 (.tick 50),
    arrives 1 2 (.installSnapshot emptyFile),
    .call 1 (.submit setKey),
    arrives 1 3 (.appendEntries
      { term := 1, leaderId := 1, previousLogIndex := 1, previousLogTerm := 1
        entries := [setKeyEntry 2], leaderCommit := 1 }),
    arrives 3 1 (.appendEntriesResponse
      { term := 1, success := true, requestPreviousLogIndex := 1, requestEntryCount := 1
        matchIndex := 2, conflictIndex := 3 }),
    .call 1 (.tryPublishSnapshot 1),
    .call 1 (.tick 50),
    .deliver installedFirst]

/-- The clusters of this run. -/
def twoPublicationsRun (k : Nat) : Tracked :=
  EventRun.execute (Tracked.step threeSenders) (twoPublications.take k)
    { cluster := ServiceCluster.boot threeSenders, answers := [] }

theorem two_publications_run : Tracked.Run threeSenders twoPublicationsRun := by
  refine EventRun.Run.of_events
    ⟨ServiceCluster.boot_initial (forall_three_hosts (by decide +kernel) (by decide +kernel)
      (by decide +kernel)), rfl⟩ ?_
  simp [twoPublications, arrives, installedFirst, ServiceEvent.Within, ServiceCall.Local]

/-- When the response to the first file arrives after the second one was sent, service 1 credits
service 2 with index 2 of which it has applied only index 1. -/
theorem late_credit :
    Tracked.Run threeSenders twoPublicationsRun ∧
      (installedFirst, emptyFile) ∈ (twoPublicationsRun 13).answers ∧
      ((twoPublicationsRun 13).cluster.service 1).raftNode.matchIndex 2 = some 0 ∧
      (((twoPublicationsRun 13).cluster.service 1).after
        (.handleInstallSnapshotResponse 2 { term := 1, success := true })).raftNode.matchIndex 2 =
          some 2 ∧
      ((twoPublicationsRun 14).cluster.service 1).raftNode.matchIndex 2 = some 2 ∧
      ((twoPublicationsRun 14).cluster.service 2).stateMachine.lastApplied = 1 :=
  ⟨two_publications_run, by decide +kernel, by decide +kernel, by decide +kernel,
    by decide +kernel, by decide +kernel⟩

/-- When it arrives before that, service 1 credits what service 2 has applied. -/
theorem credit_installed_first :
    ((twoPublicationsRun 8).cluster.service 1).raftNode.matchIndex 2 = some 0 ∧
      (((twoPublicationsRun 8).cluster.service 1).after
        (.handleInstallSnapshotResponse 2 { term := 1, success := true })).raftNode.matchIndex 2 =
          some 1 ∧
      1 ≤ ((twoPublicationsRun 8).cluster.service 2).stateMachine.lastApplied := by
  have hbefore : ((twoPublicationsRun 8).cluster.service 1).raftNode.matchIndex 2 = some 0 := by
    decide +kernel
  have hafter : (((twoPublicationsRun 8).cluster.service 1).after
      (.handleInstallSnapshotResponse 2 { term := 1, success := true })).raftNode.matchIndex 2 =
        some 1 := by decide +kernel
  have hanswer : (installedFirst, emptyFile) ∈ (twoPublicationsRun 8).answers := by
    decide +kernel
  have htransfer : (((twoPublicationsRun 8).cluster.service 1).snapshotSends 2).map
      LeaderSnapshotSend.lastIncludedIndex = some 1 := by decide +kernel
  refine ⟨hbefore, hafter, (Tracked.credit_installed two_publications_run 8 hanswer rfl rfl
    (fun send hsend => ?_) hafter).resolve_left ?_⟩
  · rw [show ((twoPublicationsRun 8).cluster.service 1).snapshotSends 2 = some send from hsend,
      Option.map_some, Option.some.injEq] at htransfer
    exact htransfer
  · rw [show ((twoPublicationsRun 8).cluster.service installedFirst.destination).raftNode.matchIndex
      installedFirst.source = some 0 from hbefore]
    simp

end DistributedKV
