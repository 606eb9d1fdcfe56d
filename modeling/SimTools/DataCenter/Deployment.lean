/- Module: SimTools/DataCenter/Deployment
   digest: cluster_main.cpp and ClusterHelper: which command lines make up a data center. -/

import SimTools.DataCenter.Network
import SimTools.DataCenter.Stamping
import SimTools.Lib.Decimal
import Mathlib.Data.List.Pairwise

set_option autoImplicit false
set_option relaxedAutoImplicit false

namespace SimTools.DataCenter.Deployment

open Lib.Memory
open Lib.Decimal hiding toString
open Lib
open Lib.Runs
open ClusterCore
open TaskHeader
open ClusterBroker
open Network
open Stamping (clusterName)

/-- An argument of the command line, a C string. -/
structure Argument where
  bytes : Bytes
  nul_free : 0 ∉ bytes

/-- Why a cluster does not come up: `main` returns -1, something is undefined, or `bind` throws. -/
inductive Failure
  | usage
  | undefined
  | addressInUse
  deriving DecidableEq

/-- "55580", "55581", "55582" -/
def kLocal_Frontend : List Bytes :=
  [[53, 53, 53, 56, 48], [53, 53, 53, 56, 49], [53, 53, 53, 56, 50]]

/-- "55590", "55591", "55592" -/
def kLocal_backend : List Bytes :=
  [[53, 53, 53, 57, 48], [53, 53, 53, 57, 49], [53, 53, 53, 57, 50]]

structure ClusterCfg where
  clusterName : Bytes
  workerNum : UInt32
  clientNum : UInt32
  localFrontend : Bytes
  localBackend : Bytes

/-- A `Client` or a `Worker`: its id, and the port that its socket is connected to. -/
structure Peer where
  id : Bytes
  port : Bytes
  deriving DecidableEq

structure OneCluster where
  clusterCfg : ClusterCfg
  clients : List Peer
  workers : List Peer

/-- The clusters whose processes are up. They all run on the machine of the super broker, which they
find under 127.0.0.1. -/
abbrev Host := List OneCluster

def defined {A : Type} : Option A → Except Failure A
  | some a => .ok a
  | none => .error .undefined

def elementAt (array : List Bytes) (index : Int) : Except Failure Bytes :=
  if 0 ≤ index then defined array[index.toNat]? else .error .undefined

def Host.ports (host : Host) : List Bytes :=
  host.flatMap (fun cluster => [cluster.clusterCfg.localFrontend, cluster.clusterCfg.localBackend])

/-- `OneCluster::OneCluster` with its `LocalBalanceBroker`; the reporter copies the name as the
cluster does. -/
def OneCluster.construct (host : Host) (clusterCfg : ClusterCfg) : Except Failure OneCluster := do
  let _ ← defined (copyStringToBuffer ClusterStateInfo.init 0 clusterCfg.clusterName).toOption
  if clusterCfg.localFrontend ∈ host.ports ∨ clusterCfg.localBackend ∈ host.ports then
    .error .addressInUse
  else do
    let _ ← defined (LocalBalanceBroker.aliveSignal clusterCfg.clusterName).toOption
    pure ⟨clusterCfg, [], []⟩

/-- "client_" and the number -/
def clientID (i : Nat) : Bytes := [99, 108, 105, 101, 110, 116, 95] ++ Decimal.toString i

/-- "worker_" and the number -/
def workerID (i : Nat) : Bytes := [119, 111, 114, 107, 101, 114, 95] ++ Decimal.toString i

/-- The loops of `ClusterHelper::buildCluster`, alike but for the name and the port. The counter is
an `int`, which must not overflow before it reaches the number. -/
def peers (idOf : Nat → Bytes) (num : UInt32) (port : Bytes) : Except Failure (List Peer) :=
  if num.toNat < 2 ^ 31 then pure ((List.range num.toNat).map (fun i => ⟨idOf i, port⟩))
  else .error .undefined

def buildCluster (cluster : OneCluster) : Except Failure OneCluster := do
  let clusterCfg := cluster.clusterCfg
  let clients ← peers clientID clusterCfg.clientNum clusterCfg.localFrontend
  let workers ← peers workerID clusterCfg.workerNum clusterCfg.localBackend
  pure { cluster with clients := cluster.clients ++ clients, workers := cluster.workers ++ workers }

/-- `main` of cluster_main.cpp up to `startTask`. -/
def clusterMain (host : Host) : List Argument → Except Failure OneCluster
  | [_, argv1, argv2, argv3, argv4] => do
    let index ← defined (atoi argv2.bytes)
    let clientNum ← defined (atoi argv3.bytes)
    let workerNum ← defined (atoi argv4.bytes)
    let localFrontend ← elementAt kLocal_Frontend index
    let localBackend ← elementAt kLocal_backend index
    let cluster ← OneCluster.construct host
      { clusterName := clusterName argv1.bytes argv2.bytes
        workerNum := UInt32.ofInt workerNum
        clientNum := UInt32.ofInt clientNum
        localFrontend := localFrontend
        localBackend := localBackend }
    buildCluster cluster
  | _ => .error .usage

/-- A cluster comes up; one that does not come up changes nothing. -/
def Step (host : Host) (argv : List Argument) (host' : Host) : Prop :=
  ∃ cluster, clusterMain host argv = .ok cluster ∧ host' = host ++ [cluster]

def brokerAt (host : Host) (portOf : ClusterCfg → Bytes) (port : Bytes) : Option OneCluster :=
  host.find? (fun cluster => portOf cluster.clusterCfg = port)

/-- The data center that the processes make up. -/
structure Represents (T : Topology) (host : Host) : Prop where
  names : T.names.map Name.bytes = host.map (fun cluster => cluster.clusterCfg.clusterName)
  nodup : T.names.Nodup
  clients : ∀ cluster ∈ host, ∀ c, c.bytes = cluster.clusterCfg.clusterName →
    (T.clients c).map Name.bytes = cluster.clients.map Peer.id
  workers : ∀ cluster ∈ host, ∀ c, c.bytes = cluster.clusterCfg.clusterName →
    (T.workers c).map Name.bytes = cluster.workers.map Peer.id

structure Connected (host : Host) : Prop where
  clients : ∀ cluster ∈ host, ∀ client ∈ cluster.clients,
    brokerAt host ClusterCfg.localFrontend client.port = some cluster
  workers : ∀ cluster ∈ host, ∀ worker ∈ cluster.workers,
    brokerAt host ClusterCfg.localBackend worker.port = some cluster

/-- A cluster that `clusterMain` has built, with the place of its ports in the two arrays. -/
structure Built (index : Nat) (cluster : OneCluster) : Prop where
  frontend : kLocal_Frontend[index]? = some cluster.clusterCfg.localFrontend
  backend : kLocal_backend[index]? = some cluster.clusterCfg.localBackend
  nul_free : 0 ∉ cluster.clusterCfg.clusterName
  nonempty : cluster.clusterCfg.clusterName ≠ []
  clientNum : cluster.clusterCfg.clientNum.toNat < 2 ^ 31
  workerNum : cluster.clusterCfg.workerNum.toNat < 2 ^ 31
  clients : cluster.clients = (List.range cluster.clusterCfg.clientNum.toNat).map
    (fun i => ⟨clientID i, cluster.clusterCfg.localFrontend⟩)
  workers : cluster.workers = (List.range cluster.clusterCfg.workerNum.toNat).map
    (fun i => ⟨workerID i, cluster.clusterCfg.localBackend⟩)

variable {host host' : Host} {argv : List Argument} {cluster : OneCluster}

theorem defined_ok {A : Type} {x : Option A} {v : A} (h : defined x = .ok v) : x = some v := by
  cases x with
  | none => cases h
  | some a =>
    cases h
    rfl

theorem elementAt_ok {array : List Bytes} {index : Int} {v : Bytes}
    (h : elementAt array index = .ok v) : array[index.toNat]? = some v := by
  unfold elementAt at h
  split at h
  · exact defined_ok h
  · cases h

theorem peers_ok {idOf : Nat → Bytes} {num : UInt32} {port : Bytes} {ps : List Peer}
    (h : peers idOf num port = .ok ps) :
    num.toNat < 2 ^ 31 ∧ ps = (List.range num.toNat).map (fun i => ⟨idOf i, port⟩) := by
  unfold peers at h
  split at h
  · rename_i small
    cases h
    exact ⟨small, rfl⟩
  · cases h

theorem construct_ok {clusterCfg : ClusterCfg}
    (h : OneCluster.construct host clusterCfg = .ok cluster) :
    cluster = ⟨clusterCfg, [], []⟩ ∧ clusterCfg.localFrontend ∉ host.ports := by
  obtain ⟨_, _, h⟩ := bind_eq_ok h
  split at h
  · cases h
  · rename_i free
    obtain ⟨_, _, h⟩ := bind_eq_ok h
    cases h
    exact ⟨rfl, fun used => free (.inl used)⟩

/-- What `clusterMain` has done when a cluster is up. -/
theorem clusterMain_ok (run : clusterMain host argv = .ok cluster) :
    ∃ argv0 argv1 argv2 argv3 argv4, argv = [argv0, argv1, argv2, argv3, argv4] ∧
      ∃ index, atoi argv2.bytes = some index ∧ Built index.toNat cluster ∧
        cluster.clusterCfg.clusterName = clusterName argv1.bytes argv2.bytes ∧
          cluster.clusterCfg.localFrontend ∉ host.ports := by
  unfold clusterMain at run
  split at run
  · rename_i argv0 argv1 argv2 argv3 argv4
    obtain ⟨index, hindex, run⟩ := bind_eq_ok run
    obtain ⟨clientNum, _, run⟩ := bind_eq_ok run
    obtain ⟨workerNum, _, run⟩ := bind_eq_ok run
    obtain ⟨localFrontend, hfrontend, run⟩ := bind_eq_ok run
    obtain ⟨localBackend, hbackend, run⟩ := bind_eq_ok run
    obtain ⟨built, hconstruct, run⟩ := bind_eq_ok run
    obtain ⟨rfl, hfree⟩ := construct_ok hconstruct
    obtain ⟨clients, hclients, run⟩ := bind_eq_ok run
    obtain ⟨workers, hworkers, run⟩ := bind_eq_ok run
    cases run
    obtain ⟨hclientNum, rfl⟩ := peers_ok hclients
    obtain ⟨hworkerNum, rfl⟩ := peers_ok hworkers
    have hnul : 0 ∉ clusterName argv1.bytes argv2.bytes := by
      simp [clusterName, argv1.nul_free, argv2.nul_free]
    exact ⟨argv0, argv1, argv2, argv3, argv4, rfl, index, defined_ok hindex,
      ⟨elementAt_ok hfrontend, elementAt_ok hbackend, hnul, Stamping.clusterName_ne_nil _ _,
        hclientNum, hworkerNum, rfl, rfl⟩, rfl, hfree⟩
  · cases run

section Ids

variable {front : Bytes} {i j n : Nat}

structure Ids (idOf : Nat → Bytes) : Prop where
  injective : Function.Injective idOf
  nul_free : ∀ i, 0 ∉ idOf i
  nonempty : ∀ i, idOf i ≠ []
  short : ∀ i < 2 ^ 31, (idOf i).length < kMaxNameSize

theorem ids_numbered (nul_free : 0 ∉ front) (short : front.length ≤ 7) :
    Ids (fun i => front ++ Decimal.toString i) := by
  refine ⟨fun i j same => toString_injective (List.append_cancel_left same), fun i => ?_,
    fun i => ?_, fun i small => ?_⟩
  · rw [List.mem_append, not_or]
    exact ⟨nul_free, zero_not_mem_toString i⟩
  · exact List.append_ne_nil_of_right_ne_nil _ (toString_ne_nil i)
  · have hdigits := length_toString_le (n := i) (k := 10) (by decide) (by omega)
    rw [List.length_append, kMaxNameSize]
    omega

theorem ids_clientID : Ids clientID := ids_numbered (by decide) (by decide)

theorem ids_workerID : Ids workerID := ids_numbered (by decide) (by decide)

def nameOf (bytes : Bytes) : Name :=
  if h : 0 ∉ bytes ∧ bytes.length < kMaxNameSize then ⟨bytes, h.1, h.2⟩ else Name.empty

theorem nameOf_bytes {bytes : Bytes} (nul_free : 0 ∉ bytes) (short : bytes.length < kMaxNameSize) :
    (nameOf bytes).bytes = bytes := by
  rw [nameOf, dif_pos ⟨nul_free, short⟩]

theorem Ids.nameOf_bytes {idOf : Nat → Bytes} (ids : Ids idOf) (small : n ≤ 2 ^ 31) (hi : i < n) :
    (nameOf (idOf i)).bytes = idOf i :=
  Deployment.nameOf_bytes (ids.nul_free i) (ids.short i (by omega))

def namesOf (idOf : Nat → Bytes) (n : Nat) : List Name :=
  (List.range n).map (fun i => nameOf (idOf i))

theorem Ids.map_bytes_namesOf {idOf : Nat → Bytes} (ids : Ids idOf) (small : n ≤ 2 ^ 31) :
    (namesOf idOf n).map Name.bytes = (List.range n).map idOf := by
  rw [namesOf, List.map_map]
  refine List.map_congr_left fun i hi => ?_
  exact ids.nameOf_bytes small (List.mem_range.mp hi)

theorem Ids.nodup_namesOf {idOf : Nat → Bytes} (ids : Ids idOf) (small : n ≤ 2 ^ 31) :
    (namesOf idOf n).Nodup := by
  refine List.Nodup.of_map Name.bytes ?_
  rw [ids.map_bytes_namesOf small]
  exact List.nodup_range.map ids.injective

theorem Ids.namesOf_ne_nil {idOf : Nat → Bytes} (ids : Ids idOf) (small : n ≤ 2 ^ 31) {name : Name}
    (hname : name ∈ namesOf idOf n) : name.bytes ≠ [] := by
  obtain ⟨i, hi, rfl⟩ := List.mem_map.mp hname
  rw [ids.nameOf_bytes small (List.mem_range.mp hi)]
  exact ids.nonempty i

end Ids

structure Hosted (host : Host) : Prop where
  built : ∀ cluster ∈ host, ∃ index, Built index cluster
  apart : host.Pairwise
    (fun a b => a.clusterCfg.localFrontend ≠ b.clusterCfg.localFrontend)

theorem Hosted.step (h : Hosted host) (hs : Step host argv host') : Hosted host' := by
  obtain ⟨cluster, run, rfl⟩ := hs
  obtain ⟨_, _, _, _, _, _, index, _, built, _, free⟩ := clusterMain_ok run
  refine ⟨fun other hother => ?_, ?_⟩
  · rcases List.mem_append.mp hother with old | new
    · exact h.built other old
    · rw [List.mem_singleton.mp new]
      exact ⟨_, built⟩
  · rw [List.pairwise_append]
    refine ⟨h.apart, List.pairwise_singleton _ _, ?_⟩
    intro other old new hnew same
    rw [List.mem_singleton.mp hnew] at same
    refine free (List.mem_flatMap.mpr ⟨other, old, ?_⟩)
    rw [← same]
    exact List.mem_cons_self

theorem hosted_of_run {es : List (List Argument)} (run : Run Step [] es host) : Hosted host :=
  run.invariant (fun _ _ _ h hs => h.step hs) ⟨by simp, List.Pairwise.nil⟩

theorem Built.port_eq_iff {i j : Nat} {a b : OneCluster} (ha : Built i a) (hb : Built j b) :
    (a.clusterCfg.localFrontend = b.clusterCfg.localFrontend ↔ i = j) ∧
      (a.clusterCfg.localBackend = b.clusterCfg.localBackend ↔ i = j) := by
  have hfrontends : kLocal_Frontend.Nodup := by decide
  have hbackends : kLocal_backend.Nodup := by decide
  obtain ⟨hi, _⟩ := List.getElem?_eq_some_iff.mp ha.frontend
  obtain ⟨hi', _⟩ := List.getElem?_eq_some_iff.mp ha.backend
  constructor
  · rw [← Option.some_inj, ← ha.frontend, ← hb.frontend]
    exact List.getElem?_inj hi hfrontends
  · rw [← Option.some_inj, ← ha.backend, ← hb.backend]
    exact List.getElem?_inj hi' hbackends

theorem find?_eq_some_of_apart {A B : Type} [DecidableEq B] (key : A → B) {xs : List A} {x : A}
    (apart : xs.Pairwise (fun a b => key a ≠ key b)) (hx : x ∈ xs) :
    xs.find? (fun y => key y = key x) = some x := by
  induction xs with
  | nil => cases hx
  | cons y xs ih =>
    obtain ⟨hy, hrest⟩ := List.pairwise_cons.mp apart
    rcases List.mem_cons.mp hx with rfl | hx
    · simp
    · rw [List.find?_cons_of_neg (by simpa using hy x hx)]
      exact ih hrest hx

namespace Hosted

theorem length_le (h : Hosted host) : host.length ≤ 3 := by
  have hnodup : (host.map (fun cluster => cluster.clusterCfg.localFrontend)).Nodup :=
    List.pairwise_map.mpr h.apart
  have hsubset : host.map (fun cluster => cluster.clusterCfg.localFrontend) ⊆ kLocal_Frontend := by
    intro port hport
    obtain ⟨cluster, hcluster, rfl⟩ := List.mem_map.mp hport
    obtain ⟨index, built⟩ := h.built cluster hcluster
    exact List.mem_of_getElem? built.frontend
  have hle := (List.subperm_of_subset hnodup hsubset).length_le
  rwa [List.length_map] at hle

theorem backends_apart (h : Hosted host) :
    host.Pairwise (fun a b => a.clusterCfg.localBackend ≠ b.clusterCfg.localBackend) := by
  refine h.apart.imp_of_mem fun {a b} ha hb other same => ?_
  obtain ⟨i, built⟩ := h.built a ha
  obtain ⟨j, built'⟩ := h.built b hb
  have hports := built.port_eq_iff built'
  exact other (hports.1.mpr (hports.2.mp same))

theorem connected (h : Hosted host) : Connected host := by
  constructor
  · intro cluster hcluster client hclient
    obtain ⟨index, built⟩ := h.built cluster hcluster
    rw [built.clients] at hclient
    obtain ⟨i, _, rfl⟩ := List.mem_map.mp hclient
    exact find?_eq_some_of_apart (fun cluster => cluster.clusterCfg.localFrontend) h.apart
      hcluster
  · intro cluster hcluster worker hworker
    obtain ⟨index, built⟩ := h.built cluster hcluster
    rw [built.workers] at hworker
    obtain ⟨i, _, rfl⟩ := List.mem_map.mp hworker
    exact find?_eq_some_of_apart (fun cluster => cluster.clusterCfg.localBackend)
      h.backends_apart hcluster

end Hosted

def clusterNames (host : Host) : List Bytes :=
  host.map (fun cluster => cluster.clusterCfg.clusterName)

def numberOf (host : Host) (num : ClusterCfg → UInt32) (c : Name) : Nat :=
  ((host.find? (fun cluster => cluster.clusterCfg.clusterName = c.bytes)).map
    (fun cluster => (num cluster.clusterCfg).toNat)).getD 0

theorem numberOf_eq (distinct : (clusterNames host).Nodup) (hcluster : cluster ∈ host) {c : Name}
    (named : c.bytes = cluster.clusterCfg.clusterName) (num : ClusterCfg → UInt32) :
    numberOf host num c = (num cluster.clusterCfg).toNat := by
  rw [clusterNames, List.Nodup, List.pairwise_map] at distinct
  have hfind := find?_eq_some_of_apart (fun cluster => cluster.clusterCfg.clusterName) distinct
    hcluster
  rw [numberOf, named, hfind]
  rfl

theorem numberOf_lt {num : ClusterCfg → UInt32}
    (small : ∀ cluster ∈ host, (num cluster.clusterCfg).toNat < 2 ^ 31) (c : Name) :
    numberOf host num c < 2 ^ 31 := by
  rw [numberOf]
  cases hfind : host.find? (fun cluster => cluster.clusterCfg.clusterName = c.bytes) with
  | none => exact Nat.two_pow_pos 31
  | some cluster => exact small cluster (List.mem_of_find?_eq_some hfind)

namespace Hosted

theorem clientNum_lt (h : Hosted host) (c : Name) :
    numberOf host ClusterCfg.clientNum c < 2 ^ 31 := by
  refine numberOf_lt (fun cluster hcluster => ?_) c
  obtain ⟨_, built⟩ := h.built cluster hcluster
  exact built.clientNum

theorem workerNum_lt (h : Hosted host) (c : Name) :
    numberOf host ClusterCfg.workerNum c < 2 ^ 31 := by
  refine numberOf_lt (fun cluster hcluster => ?_) c
  obtain ⟨_, built⟩ := h.built cluster hcluster
  exact built.workerNum

theorem nameOf_eq (h : Hosted host) (hcluster : cluster ∈ host)
    (short : cluster.clusterCfg.clusterName.length < kMaxNameSize) :
    (nameOf cluster.clusterCfg.clusterName).bytes = cluster.clusterCfg.clusterName := by
  obtain ⟨_, built⟩ := h.built cluster hcluster
  exact nameOf_bytes built.nul_free short

end Hosted

def topologyOf (host : Host) (h : Hosted host)
    (short : ∀ cluster ∈ host, cluster.clusterCfg.clusterName.length < kMaxNameSize) :
    Topology where
  names := host.map (fun cluster => nameOf cluster.clusterCfg.clusterName)
  clients := fun c => namesOf clientID (numberOf host ClusterCfg.clientNum c)
  workers := fun c => namesOf workerID (numberOf host ClusterCfg.workerNum c)
  names_ne := by
    intro c hc
    obtain ⟨cluster, hcluster, rfl⟩ := List.mem_map.mp hc
    obtain ⟨_, built⟩ := h.built cluster hcluster
    rw [h.nameOf_eq hcluster (short cluster hcluster)]
    exact built.nonempty
  clients_ne := fun c _ _ hi => ids_clientID.namesOf_ne_nil (h.clientNum_lt c).le hi
  workers_nodup := fun c => ids_workerID.nodup_namesOf (h.workerNum_lt c).le
  workers_few := by
    intro c
    have hlt := h.workerNum_lt c
    rw [namesOf, List.length_map, List.length_range]
    omega

theorem Hosted.represents (h : Hosted host) (distinct : (clusterNames host).Nodup)
    (short : ∀ cluster ∈ host, cluster.clusterCfg.clusterName.length < kMaxNameSize) :
    Represents (topologyOf host h short) host := by
  have hnames : (topologyOf host h short).names.map Name.bytes = clusterNames host := by
    rw [topologyOf, List.map_map]
    exact List.map_congr_left fun cluster hcluster =>
      h.nameOf_eq hcluster (short cluster hcluster)
  refine ⟨hnames, List.Nodup.of_map Name.bytes (hnames ▸ distinct), ?_, ?_⟩
  · intro cluster hcluster c named
    obtain ⟨_, built⟩ := h.built cluster hcluster
    have hlt := h.clientNum_lt c
    rw [topologyOf, ids_clientID.map_bytes_namesOf hlt.le, numberOf_eq distinct hcluster named,
      built.clients, List.map_map]
    rfl
  · intro cluster hcluster c named
    obtain ⟨_, built⟩ := h.built cluster hcluster
    have hlt := h.workerNum_lt c
    rw [topologyOf, ids_workerID.map_bytes_namesOf hlt.le, numberOf_eq distinct hcluster named,
      built.workers, List.map_map]
    rfl

/-- The index of a cluster is given in plain digits. -/
def Plain (argv : List Argument) : Prop :=
  ∀ argv2 ∈ argv[2]?, ∃ n, argv2.bytes = Decimal.toString n

/-- The name of a cluster ends with its index. -/
def EndsWithIndex (cluster : OneCluster) : Prop :=
  ∃ argv1 index, Built index cluster ∧
    cluster.clusterCfg.clusterName = clusterName argv1 (Decimal.toString index)

theorem endsWithIndex_of_run {es : List (List Argument)} (run : Run Step host es host')
    (plain : ∀ argv ∈ es, Plain argv) (start : ∀ cluster ∈ host, EndsWithIndex cluster) :
    ∀ cluster ∈ host', EndsWithIndex cluster := by
  induction run with
  | nil _ => exact start
  | @cons host host₁ _ argv es hs _ ih =>
    refine ih (fun argv hargv => plain argv (List.mem_cons_of_mem _ hargv)) ?_
    obtain ⟨new, hmain, rfl⟩ := hs
    intro cluster hcluster
    rcases List.mem_append.mp hcluster with old | hnew
    · exact start cluster old
    · rw [List.mem_singleton.mp hnew]
      obtain ⟨_, argv1, argv2, _, _, rfl, index, hatoi, built, named, _⟩ := clusterMain_ok hmain
      obtain ⟨n, hn⟩ := plain _ List.mem_cons_self argv2 rfl
      rw [hn, atoi_toString] at hatoi
      split at hatoi
      · cases hatoi
        exact ⟨argv1.bytes, n, built, by rw [named, hn]⟩
      · cases hatoi

theorem EndsWithIndex.index_eq {a b : OneCluster} (ha : EndsWithIndex a) (hb : EndsWithIndex b)
    (same : a.clusterCfg.clusterName = b.clusterCfg.clusterName) :
    a.clusterCfg.localFrontend = b.clusterCfg.localFrontend := by
  obtain ⟨argv1, i, built, named⟩ := ha
  obtain ⟨argv1', j, built', named'⟩ := hb
  have hi : i < 3 := (List.getElem?_eq_some_iff.mp built.frontend).1
  have hj : j < 3 := (List.getElem?_eq_some_iff.mp built'.frontend).1
  rw [named, named', clusterName, clusterName, toString_of_lt_ten (by omega),
    toString_of_lt_ten (by omega)] at same
  have hlast := (List.append_inj' same rfl).2
  have hcode := congrArg UInt8.toNat (List.singleton_injective hlast)
  rw [toNat_digit (by omega), toNat_digit (by omega)] at hcode
  exact (built.port_eq_iff built').1.mpr (by omega)

/-- At most three clusters come up, and all their clients and workers are connected to them. They
are a data center exactly when their names are distinct and fit into their buffers, and distinct
they are whenever the indices are given in plain digits. -/
theorem deployment {es : List (List Argument)} (run : Run Step [] es host) :
    host.length ≤ 3 ∧ Connected host ∧
    ((∃ T, Represents T host) ↔ (clusterNames host).Nodup ∧
      ∀ cluster ∈ host, cluster.clusterCfg.clusterName.length < kMaxNameSize) ∧
    ((∀ argv ∈ es, Plain argv) → (clusterNames host).Nodup) := by
  have h := hosted_of_run run
  refine ⟨h.length_le, h.connected, ⟨?_, ?_⟩, fun plain => ?_⟩
  · rintro ⟨T, rep⟩
    have hnames : T.names.map Name.bytes = clusterNames host := rep.names
    refine ⟨hnames ▸ rep.nodup.map Name.bytes_injective, fun cluster hcluster => ?_⟩
    have hmem : cluster.clusterCfg.clusterName ∈ T.names.map Name.bytes := by
      rw [hnames]
      exact List.mem_map_of_mem hcluster
    obtain ⟨c, _, hc⟩ := List.mem_map.mp hmem
    rw [← hc]
    exact c.short
  · rintro ⟨distinct, short⟩
    exact ⟨_, h.represents distinct short⟩
  · have hends := endsWithIndex_of_run run plain (by simp)
    refine List.pairwise_map.mpr (h.apart.imp_of_mem fun {a b} ha hb other same => ?_)
    exact other ((hends a ha).index_eq (hends b hb) same)

theorem construct_eq (host : Host) (clusterCfg : ClusterCfg) (c : Name)
    (named : clusterCfg.clusterName = c.bytes) (frontend : clusterCfg.localFrontend ∉ host.ports)
    (backend : clusterCfg.localBackend ∉ host.ports) :
    OneCluster.construct host clusterCfg = .ok ⟨clusterCfg, [], []⟩ := by
  obtain ⟨_, _, hreport, _⟩ := SuperBroker.statePuller_stateReport SuperBroker.init c 0
  obtain ⟨stateInfo, hcopy, _⟩ := bind_eq_ok hreport
  obtain ⟨metaMsg, hsignal, _⟩ := LocalBalanceBroker.aliveSignal_eq c
  simp only [OneCluster.construct, named, hcopy, hsignal, frontend, backend, or_self, defined,
    Except.toOption, ↓reduceIte, bind, Except.bind, pure, Except.pure]

theorem peers_eq (idOf : Nat → Bytes) {n : Nat} (small : n < 2 ^ 31) (port : Bytes) :
    peers idOf (UInt32.ofInt n) port = .ok ((List.range n).map (fun i => ⟨idOf i, port⟩)) := by
  have hnum : (UInt32.ofInt n).toNat = n := by
    rw [UInt32.ofInt, UInt32.toNat_ofNat']
    omega
  rw [peers, hnum, if_pos small]
  rfl

/-- A cluster that is started as the usage message says, while nobody else has its ports. -/
theorem clusterMain_eq (host : Host) (argv0 argv1 argv2 argv3 argv4 : Argument) (c : Name)
    {i clientNum workerNum : Nat} {localFrontend localBackend : Bytes}
    (named : c.bytes = clusterName argv1.bytes argv2.bytes)
    (index : argv2.bytes = Decimal.toString i) (clients : argv3.bytes = Decimal.toString clientNum)
    (workers : argv4.bytes = Decimal.toString workerNum) (small : clientNum < 2 ^ 31)
    (small' : workerNum < 2 ^ 31) (frontend : kLocal_Frontend[i]? = some localFrontend)
    (free : localFrontend ∉ host.ports) (backend : kLocal_backend[i]? = some localBackend)
    (free' : localBackend ∉ host.ports) :
    ∃ cluster, clusterMain host [argv0, argv1, argv2, argv3, argv4] = .ok cluster ∧
      cluster.clusterCfg = ⟨c.bytes, UInt32.ofInt workerNum, UInt32.ofInt clientNum,
        localFrontend, localBackend⟩ ∧
      cluster.clients.length = clientNum ∧ cluster.workers.length = workerNum := by
  have hi : i < 3 := (List.getElem?_eq_some_iff.mp frontend).1
  have hindex : atoi argv2.bytes = some (i : Int) := by
    rw [index, atoi_toString, if_pos (by omega)]
  have hclients : atoi argv3.bytes = some (clientNum : Int) := by
    rw [clients, atoi_toString, if_pos small]
  have hworkers : atoi argv4.bytes = some (workerNum : Int) := by
    rw [workers, atoi_toString, if_pos small']
  have helement : ∀ array : List Bytes, elementAt array (i : Int) = defined array[i]? := by
    intro array
    rw [elementAt, if_pos (by omega), Int.toNat_natCast]
  have hconstruct := construct_eq host ⟨clusterName argv1.bytes argv2.bytes,
    UInt32.ofInt workerNum, UInt32.ofInt clientNum, localFrontend, localBackend⟩ c named.symm free
    free'
  simp only [clusterMain, hindex, hclients, hworkers, helement, frontend, backend, defined,
    hconstruct, buildCluster, peers_eq _ small, peers_eq _ small', bind, Except.bind, pure,
    Except.pure]
  exact ⟨_, rfl, by rw [named], by simp, by simp⟩

/-- The name "A" with the indices 0 and 1, and one client and one worker each. -/
theorem deployment_two_clusters : ∃ argv argv' host, Run Step [] [argv, argv'] host ∧
    host.length = 2 ∧ (clusterNames host).Nodup ∧ ∃ T, Represents T host := by
  have hzero : [48] = Decimal.toString 0 := (toString_of_lt_ten (d := 0) (by decide)).symm
  have hone : [49] = Decimal.toString 1 := (toString_of_lt_ten (d := 1) (by decide)).symm
  obtain ⟨first, hfirst, cfg, _⟩ := clusterMain_eq [] ⟨[], by decide⟩ ⟨[65], by decide⟩
    ⟨[48], by decide⟩ ⟨[49], by decide⟩ ⟨[49], by decide⟩ ⟨[65, 95, 48], by decide, by decide⟩ rfl
    hzero hone hone (by decide) (by decide) rfl (by simp [Host.ports]) rfl (by simp [Host.ports])
  obtain ⟨second, hsecond, cfg', _⟩ := clusterMain_eq [first] ⟨[], by decide⟩ ⟨[65], by decide⟩
    ⟨[49], by decide⟩ ⟨[49], by decide⟩ ⟨[49], by decide⟩ ⟨[65, 95, 49], by decide, by decide⟩ rfl
    hone hone hone (by decide) (by decide) rfl (by simp [Host.ports, cfg]) rfl
    (by simp [Host.ports, cfg])
  have run : Run Step [] [_, _] [first, second] :=
    .cons ⟨first, hfirst, rfl⟩ (.single ⟨second, hsecond, rfl⟩)
  obtain ⟨-, -, hrepresents, hplain⟩ := deployment run
  have hnodup : (clusterNames [first, second]).Nodup := by
    refine hplain (fun argv hargv argv2 hargv2 => ?_)
    rcases List.mem_pair.mp hargv with rfl | rfl
    · cases hargv2
      exact ⟨0, hzero⟩
    · cases hargv2
      exact ⟨1, hone⟩
  refine ⟨_, _, _, run, rfl, hnodup, hrepresents.mpr ⟨hnodup, ?_⟩⟩
  simp [cfg, cfg', kMaxNameSize]

end SimTools.DataCenter.Deployment
