/- Module: SimTools/DataCenter/HeaderCopies
   digest: Which messages the brokers' handlers bear, whatever the length of their header or state part. -/

import SimTools.DataCenter.LogLines

set_option autoImplicit false
set_option relaxedAutoImplicit false

namespace SimTools.DataCenter.HeaderCopies

open Lib.Memory
open Lib.Checked
open ClusterCore
open TaskHeader
open ClusterBroker
open LogLines

/-- The handler comes to its end, with every copy and every string inside its object; and a message
that has not the size of the structure comes to no more than `contained`. -/
structure Harmless {A : Type} (x : Except MemError A) (sized : Prop) (contained : A → Prop) :
    Prop where
  completes : Succeeds x
  malformed : ¬ sized → ∀ a, x = .ok a → contained a

def SameReports (s s' : SuperBroker) : Prop :=
  ∀ name : Bytes, s'.clusterInfoMap[name]? = s.clusterInfoMap[name]?

/-- `taskRouter` changes nothing of its broker, and answers with a rejection. -/
def DroppedOrRejected (out : Option (Bytes × Message)) : Prop :=
  ∀ identity m, out = some (identity, m) →
    wordAt m.metaMsg 140 = TaskDirection.taskReplyRejected.code

/-- The broker is as before, and nothing leaves it but an answer through the given socket. -/
def DroppedOrAnswered (b : LocalBalanceBroker) (answer : Message → Outgoing → Prop)
    (r : LocalBalanceBroker × Option Outgoing) : Prop :=
  r.1 = b ∧ ∀ out, r.2 = some out → ∃ m, answer m out

def HarmlessStatePuller (s : SuperBroker) (msg : Bytes) : Prop :=
  Harmless (s.statePuller msg) (msg.length = sizeofClusterStateInfo) (SameReports s)

def HarmlessTaskRouter (s : SuperBroker) (m : Message) : Prop :=
  Harmless (taskRouter s m) (m.metaMsg.length = sizeofTaskMeta) DroppedOrRejected

def HarmlessRouteCloud (b : LocalBalanceBroker) (m : Message) : Prop :=
  Harmless (routeCloud b m) (m.metaMsg.length = sizeofTaskMeta)
    (DroppedOrAnswered b fun m' out => out = .cloudTask m')

def HarmlessRouteLocalRequest (b : LocalBalanceBroker) (m : Message) : Prop :=
  Harmless (routeLocalRequest b m) (m.metaMsg.length = sizeofTaskMeta)
    (DroppedOrAnswered b fun m' out => ∃ identity, out = .frontEnd identity m')

def HarmlessRouteLocalReply (b : LocalBalanceBroker) (m : Message) : Prop :=
  Harmless (routeLocalReply b m) (m.metaMsg.length = sizeofTaskMeta)
    (DroppedOrAnswered b fun m' out => ∃ identity, out = .backEnd identity m')

def padded (n : Nat) (msg : Bytes) : Bytes := msg ++ List.replicate (n - msg.length) 0

/-- The report is whole and its name ends inside it, or it is short and stands there already. -/
def StatePullerFits (s : SuperBroker) (msg : Bytes) : Prop :=
  (msg.length = sizeofClusterStateInfo ∧ 0 ∈ msg) ∨
    (msg.length < sizeofClusterStateInfo ∧ ∃ (name : Bytes) (info : ClusterStateInfo),
      s.clusterInfoMap[name]? = some info ∧ info.image = padded sizeofClusterStateInfo msg ∧
        StrAt info.image 0 name)

/-- What is dropped may be short. -/
def TaskRouterFits (s : SuperBroker) (msg : Bytes) : Prop :=
  (msg.length ≤ sizeofTaskMeta ∧ Idle (padded sizeofTaskMeta msg)) ∨
    (msg.length = sizeofTaskMeta ∧ Routable s msg)

/-- The header is whole. A request for a ready worker needs names that can be stamped, an answer
names that end. -/
def RouteCloudFits (b : LocalBalanceBroker) (msg : Bytes) : Prop :=
  msg.length = sizeofTaskMeta ∧
    (IsSubmit msg → b.storeCount.readyWorkerCount > 0 → Stampable .toClusterID b.clusterName ∧
      ∀ workerID ∈ b.workReadyQueue.head?, Stampable .toID workerID) ∧
    (¬ IsSubmit msg → Ends msg .toID)

/-- The header is whole and the names can be stamped; the id of the client, which is printed when
no worker is ready, ends. -/
def RouteLocalRequestFits (b : LocalBalanceBroker) (msg : Bytes) : Prop :=
  msg.length = sizeofTaskMeta ∧ Stampable .fromClusterID b.clusterName ∧
    (∀ workerID ∈ b.workReadyQueue.head?,
      Stampable .toClusterID b.clusterName ∧ Stampable .toID workerID) ∧
    (b.workReadyQueue = [] → 32 ≤ b.clusterName.length ∨ Ends msg .fromID)

/-- The header is whole and its names end. Those of a reply that goes on can be stamped, and then
they still end. -/
def RouteLocalReplyFits (b : LocalBalanceBroker) (msg : Bytes) : Prop :=
  msg.length = sizeofTaskMeta ∧ Ends msg .fromID ∧
    (¬ IsAlive msg → ∃ fromClusterID, StrAt msg AddrField.fromClusterID.offset fromClusterID ∧
      Stampable .toClusterID fromClusterID ∧ Stampable .fromClusterID b.clusterName ∧
      (Ends msg .toID ∨ 32 ≤ fromClusterID.length ∨ 96 ≤ b.clusterName.length))

section Padding

variable {n : Nat} {msg : Bytes}

theorem length_padded (fits : msg.length ≤ n) : (padded n msg).length = n := by
  rw [padded, List.length_append, List.length_replicate]
  omega

theorem padded_of_length_eq (whole : msg.length = n) : padded n msg = msg := by
  rw [padded, whole, Nat.sub_self, List.replicate_zero, List.append_nil]

theorem store_zero_iff {obj : Obj n} :
    (Obj.zero n).store 0 msg = .ok obj ↔ msg.length ≤ n ∧ obj.image = padded n msg := by
  have hpatch : patch (Obj.zero n).image 0 msg = padded n msg := by
    simp [patch, padded, Obj.zero]
  constructor
  · intro stored
    obtain ⟨fits, image⟩ := Obj.store_ok_inv stored
    exact ⟨by omega, image.trans hpatch⟩
  · rintro ⟨fits, image⟩
    obtain ⟨obj', stored, image'⟩ := (Obj.zero n).store_eq_ok 0 msg (by omega)
    obtain rfl : obj' = obj := Obj.image_injective (image'.trans (hpatch.trans image.symm))
    exact stored

theorem ofMsg_of_fits {msg : Bytes} (fits : msg.length ≤ sizeofTaskMeta) :
    ∃ taskMeta, TaskMeta.ofMsg msg = .ok taskMeta ∧ taskMeta.image = padded sizeofTaskMeta msg :=
  ⟨⟨_, length_padded fits⟩, store_zero_iff.mpr ⟨fits, rfl⟩, rfl⟩

end Padding

theorem harmless_of_sized {A : Type} {x : Except MemError A} {sized : Prop} {contained : A → Prop}
    (whole : sized) : Harmless x sized contained ↔ Succeeds x :=
  ⟨Harmless.completes, fun succeeds => ⟨succeeds, absurd whole⟩⟩

section StatePuller

variable {s : SuperBroker} {msg name : Bytes} {info : ClusterStateInfo}

theorem statePuller_eq (hread : ClusterStateInfo.ofMsg msg = .ok info)
    (hname : StrAt info.image 0 name) :
    s.statePuller msg = .ok ⟨s.clusterInfoMap.insert name info⟩ := by
  simp only [SuperBroker.statePuller, hread, ClusterStateInfo.clusterName, hname.cstring_eq, bind,
    Except.bind, pure, Except.pure]

theorem sameReports_insert_iff :
    SameReports s ⟨s.clusterInfoMap.insert name info⟩ ↔ s.clusterInfoMap[name]? = some info := by
  constructor
  · intro same
    rw [← same name, Std.TreeMap.getElem?_insert_self]
  · intro here other
    rw [Std.TreeMap.getElem?_insert]
    split
    · rename_i hname
      rw [← here, Std.LawfulEqCmp.compare_eq_iff_eq.mp hname]
    · rfl

end StatePuller

theorem harmless_statePuller (s : SuperBroker) (msg : Bytes) :
    HarmlessStatePuller s msg ↔ StatePullerFits s msg := by
  rcases Nat.lt_trichotomy msg.length sizeofClusterStateInfo with short | whole | long
  · -- the report is completed with zeros, and its name ends there at the latest
    have fits := Nat.le_of_lt short
    obtain ⟨info, hread, image⟩ : ∃ info, ClusterStateInfo.ofMsg msg = .ok info ∧
        info.image = padded sizeofClusterStateInfo msg :=
      ⟨⟨_, length_padded fits⟩, store_zero_iff.mpr ⟨fits, rfl⟩, rfl⟩
    obtain ⟨name, hname⟩ : ∃ name, StrAt info.image 0 name := by
      refine ⟨_, cstring_eq_ok_iff.mp (if_pos ?_)⟩
      rw [List.drop_zero, image, padded]
      exact List.mem_append_right _ (List.mem_replicate.mpr ⟨Nat.sub_ne_zero_of_lt short, rfl⟩)
    have hrun := statePuller_eq (s := s) hread hname
    constructor
    · intro harmless
      have same := harmless.malformed (Nat.ne_of_lt short) _ hrun
      exact .inr ⟨short, name, info, sameReports_insert_iff.mp same, image, hname⟩
    · rintro (⟨whole, _⟩ | ⟨_, name', info', here, image', hname'⟩)
      · exact absurd whole (Nat.ne_of_lt short)
      · obtain rfl : info' = info := Obj.image_injective (image'.trans image.symm)
        obtain rfl := hname'.unique hname
        refine ⟨⟨_, hrun⟩, fun _ s' run => ?_⟩
        cases hrun.symm.trans run
        exact sameReports_insert_iff.mpr here
  · have hread : ClusterStateInfo.ofMsg msg = .ok ⟨msg, whole⟩ :=
      Obj.store_whole ClusterStateInfo.init whole
    have hrun : Succeeds (s.statePuller msg) ↔ 0 ∈ msg := by
      rw [SuperBroker.statePuller, hread]
      refine (succeeds_bind_iff fun name _ => iff_true_intro ⟨_, rfl⟩).trans ?_
      rw [and_true]
      exact succeeds_cstring_iff msg 0
    rw [HarmlessStatePuller, harmless_of_sized whole, hrun, StatePullerFits, and_iff_right whole,
      or_iff_left fun short => absurd short.1 (Nat.not_lt.mpr whole.ge)]
  · refine iff_of_false (fun harmless => ?_) ?_
    · obtain ⟨_, hread, _⟩ := succeeds_bind.mp harmless.completes
      exact absurd (store_zero_iff.mp hread).1 (Nat.not_le.mpr long)
    · rintro (⟨whole, _⟩ | ⟨short, _⟩)
      · exact absurd whole (Nat.ne_of_gt long)
      · exact absurd short (Nat.lt_asymm long)

theorem harmless_taskRouter (s : SuperBroker) (m : Message) :
    HarmlessTaskRouter s m ↔ TaskRouterFits s m.metaMsg := by
  rcases Nat.lt_or_ge sizeofTaskMeta m.metaMsg.length with long | fits
  · refine iff_of_false (fun harmless => ?_) ?_
    · obtain ⟨_, hread, _⟩ := succeeds_bind.mp harmless.completes
      exact absurd (store_zero_iff.mp hread).1 (Nat.not_le.mpr long)
    · rintro (⟨fits, _⟩ | ⟨whole, _⟩)
      · exact absurd fits (Nat.not_le.mpr long)
      · exact absurd whole (Nat.ne_of_gt long)
  obtain ⟨taskMeta, hread, image⟩ := ofMsg_of_fits fits
  by_cases idle : Idle taskMeta.image
  · have hrun := taskRouter_idle (s := s) hread idle
    refine iff_of_true ⟨⟨none, hrun⟩, fun _ out run => ?_⟩ (.inl ⟨fits, image ▸ idle⟩)
    cases hrun.symm.trans run
    exact fun _ _ none => nomatch none
  · have hrun := succeeds_taskRouter (s := s) hread idle
    constructor
    · intro harmless
      obtain ⟨enough, hsend⟩ := hrun.mp harmless.completes
      have whole : m.metaMsg.length = sizeofTaskMeta := Nat.le_antisymm fits enough
      rw [image, padded_of_length_eq whole] at hsend
      exact .inr ⟨whole, hsend⟩
    · rintro (⟨_, nothing⟩ | ⟨whole, hsend⟩)
      · exact absurd (image ▸ nothing) idle
      · refine (harmless_of_sized whole).mpr (hrun.mpr ⟨whole.ge, ?_⟩)
        rw [image, padded_of_length_eq whole]
        exact hsend

theorem length_of_written {msg msg' : Bytes} {read written : TaskMeta}
    (hread : TaskMeta.ofMsg msg = .ok read) (hwrite : overwrite msg written.image = .ok msg') :
    msg.length = sizeofTaskMeta := by
  rw [(eq_of_ofMsg_overwrite hread hwrite).1, read.size_eq]

/-- A request takes a worker away, an answer goes on to a client, a rejection is written back. -/
theorem harmless_routeCloud (b : LocalBalanceBroker) (m : Message) :
    HarmlessRouteCloud b m ↔ RouteCloudFits b m.metaMsg := by
  by_cases whole : m.metaMsg.length = sizeofTaskMeta
  · rw [HarmlessRouteCloud, harmless_of_sized whole, succeeds_routeCloud whole, RouteCloudFits,
      and_iff_right whole]
  refine iff_of_false (fun harmless => whole ?_) fun fits => whole fits.1
  obtain ⟨⟨b', out⟩, run⟩ := harmless.completes
  obtain ⟨_, answered⟩ := harmless.malformed whole _ run
  obtain ⟨taskMeta, hread, run⟩ := bind_eq_ok run
  split at run
  · dsimp only at run
    split at run
    · obtain ⟨_, _, run⟩ := bind_eq_ok run
      obtain ⟨_, _, run⟩ := bind_eq_ok run
      obtain ⟨_, _, run⟩ := bind_eq_ok run
      obtain ⟨_, _, run⟩ := bind_eq_ok run
      cases run
      obtain ⟨_, back⟩ := answered _ rfl
      cases back
    · obtain ⟨_, _, run⟩ := bind_eq_ok run
      obtain ⟨_, _, run⟩ := bind_eq_ok run
      obtain ⟨_, _, run⟩ := bind_eq_ok run
      obtain ⟨_, hwrite, _⟩ := bind_eq_ok run
      exact length_of_written hread hwrite
  · obtain ⟨_, _, run⟩ := bind_eq_ok run
    obtain ⟨_, _, run⟩ := bind_eq_ok run
    cases run
    obtain ⟨_, back⟩ := answered _ rfl
    cases back

/-- Every request is written back. -/
theorem harmless_routeLocalRequest (b : LocalBalanceBroker) (m : Message) :
    HarmlessRouteLocalRequest b m ↔ RouteLocalRequestFits b m.metaMsg := by
  by_cases whole : m.metaMsg.length = sizeofTaskMeta
  · rw [HarmlessRouteLocalRequest, harmless_of_sized whole, succeeds_routeLocalRequest whole,
      RouteLocalRequestFits, and_iff_right whole]
  refine iff_of_false (fun harmless => whole ?_) fun fits => whole fits.1
  obtain ⟨_, run⟩ := harmless.completes
  obtain ⟨taskMeta, hread, run⟩ := bind_eq_ok run
  obtain ⟨_, _, run⟩ := bind_eq_ok run
  split at run
  · obtain ⟨_, _, run⟩ := bind_eq_ok run
    obtain ⟨_, _, run⟩ := bind_eq_ok run
    obtain ⟨_, _, run⟩ := bind_eq_ok run
    obtain ⟨_, hwrite, _⟩ := bind_eq_ok run
    exact length_of_written hread hwrite
  · obtain ⟨_, hwrite, _⟩ := bind_eq_ok run
    exact length_of_written hread hwrite

/-- An alive signal adds a worker to the queue, a reply is written back. -/
theorem harmless_routeLocalReply (b : LocalBalanceBroker) (m : Message) :
    HarmlessRouteLocalReply b m ↔ RouteLocalReplyFits b m.metaMsg := by
  by_cases whole : m.metaMsg.length = sizeofTaskMeta
  · rw [HarmlessRouteLocalReply, harmless_of_sized whole, succeeds_routeLocalReply whole,
      RouteLocalReplyFits, and_iff_right whole]
  refine iff_of_false (fun harmless => whole ?_) fun fits => whole fits.1
  obtain ⟨⟨b', out⟩, run⟩ := harmless.completes
  obtain ⟨same, _⟩ := harmless.malformed whole _ run
  obtain ⟨taskMeta, hread, run⟩ := bind_eq_ok run
  obtain ⟨fromID, _, run⟩ := bind_eq_ok run
  dsimp only at run
  split at run
  · obtain ⟨_, _, run⟩ := bind_eq_ok run
    cases run
    have hlength := congrArg (fun b => b.workReadyQueue.length) same
    simp [LocalBalanceBroker.push] at hlength
  · obtain ⟨_, _, run⟩ := bind_eq_ok run
    obtain ⟨_, _, run⟩ := bind_eq_ok run
    obtain ⟨_, _, run⟩ := bind_eq_ok run
    obtain ⟨_, hwrite, _⟩ := bind_eq_ok run
    exact length_of_written hread hwrite

/-- Which messages the handlers bear: no access leaves its object, and a header or a state of the
wrong length is dropped or answered with the broker as before. -/
theorem harmless_iff_fits (s : SuperBroker) (b : LocalBalanceBroker) (msg : Bytes) (m : Message) :
    (HarmlessStatePuller s msg ↔ StatePullerFits s msg) ∧
    (HarmlessTaskRouter s m ↔ TaskRouterFits s m.metaMsg) ∧
    (HarmlessRouteCloud b m ↔ RouteCloudFits b m.metaMsg) ∧
    (HarmlessRouteLocalRequest b m ↔ RouteLocalRequestFits b m.metaMsg) ∧
    (HarmlessRouteLocalReply b m ↔ RouteLocalReplyFits b m.metaMsg) :=
  ⟨harmless_statePuller s msg, harmless_taskRouter s m, harmless_routeCloud b m,
    harmless_routeLocalRequest b m, harmless_routeLocalReply b m⟩

/-- A state or a header that is one byte too long is copied over its structure, and an empty header
is written back with 144 bytes. -/
theorem wrong_lengths :
    ¬ HarmlessStatePuller .init (List.replicate 37 0) ∧
    ¬ HarmlessTaskRouter .init ⟨List.replicate 145 0, []⟩ ∧
    ¬ HarmlessRouteCloud (.init [65]) ⟨List.replicate 145 0, []⟩ ∧
    ¬ HarmlessRouteLocalRequest (.init [65]) ⟨List.replicate 145 0, []⟩ ∧
    ¬ HarmlessRouteLocalReply (.init [65]) ⟨List.replicate 145 0, []⟩ ∧
    ¬ HarmlessRouteLocalRequest (.init [65]) ⟨[], []⟩ := by
  have hlong : (List.replicate 145 (0 : UInt8)).length ≠ sizeofTaskMeta := by
    rw [List.length_replicate]
    decide
  refine ⟨?_, ?_, ?_, ?_, ?_, ?_⟩
  · rw [harmless_statePuller]
    rintro (⟨whole, _⟩ | ⟨short, _⟩)
    · exact absurd whole (by decide)
    · exact absurd short (by decide)
  · rw [harmless_taskRouter]
    rintro (⟨fits, _⟩ | ⟨whole, _⟩)
    · rw [List.length_replicate] at fits
      exact absurd fits (by decide)
    · exact hlong whole
  · rw [harmless_routeCloud]
    exact fun fits => hlong fits.1
  · rw [harmless_routeLocalRequest]
    exact fun fits => hlong fits.1
  · rw [harmless_routeLocalReply]
    exact fun fits => hlong fits.1
  · rw [harmless_routeLocalRequest]
    exact fun fits => absurd fits.1 (by decide)

end SimTools.DataCenter.HeaderCopies
