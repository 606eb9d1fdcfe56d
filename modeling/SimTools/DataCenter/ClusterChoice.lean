/- Module: SimTools/DataCenter/ClusterChoice
   digest: What the super broker makes of one request, for every map of reported counts. -/

import SimTools.DataCenter.Routing

set_option autoImplicit false
set_option relaxedAutoImplicit false

namespace SimTools.DataCenter.ClusterChoice

open Lib.Memory
open Lib.Selection
open ClusterCore
open TaskHeader
open ClusterBroker (Message)
open Routing

/-- Cluster `c` has the largest count of all, and its name is the first in the order of the map
among those with that count. -/
structure Chosen (s : SuperBroker) (c : Name) (n : Nat) : Prop where
  counted : s.reportedCount c.bytes = some n
  positive : 0 < n
  largest : ∀ name k, s.reportedCount name = some k → k ≤ n
  first : ∀ name, s.reportedCount name = some n → name = c.bytes ∨ compare c.bytes name = .lt

def Named (s : SuperBroker) : Prop :=
  ∀ name n, s.reportedCount name = some n → ∃ c : Name, c.bytes ≠ [] ∧ name = c.bytes

structure Rejection (h : Header) (metaMsg : Bytes) : Prop where
  shown : Carries metaMsg h.rejected
  direction : h.rejected.taskDirection = .taskReplyRejected
  taskID : h.rejected.taskID = h.taskID
  cluster : h.rejected.addr .toClusterID = h.addr .fromClusterID
  client : h.rejected.addr .toID = h.addr .fromID

variable {s : SuperBroker} {m : Message} {h : Header}

theorem rejection_of_carries {metaMsg : Bytes} (shown : Carries metaMsg h.rejected) :
    Rejection h metaMsg :=
  ⟨shown, rfl, rfl, Header.rejected_toClusterID h, Header.rejected_toID h⟩

theorem selectCluster_chosen (named : Named s) :
    (s.selectCluster = ([], 0) ∧ ∀ name n, s.reportedCount name = some n → n = 0) ∨
    ∃ c : Name, ∃ n, c.bytes ≠ [] ∧ Chosen s c n ∧ s.selectCluster = (c.bytes, n) := by
  rcases s.selectCluster_cases with idle | ⟨name, info, hmax, hreported, hpos, hsel⟩
  · exact .inl idle
  · obtain ⟨c, hc, rfl⟩ := named name _ hreported
    refine .inr ⟨c, _, hc, ⟨hreported, hpos, ?_, ?_⟩, hsel⟩
    · intro name k hk
      obtain ⟨info', hinfo', rfl⟩ := Option.map_eq_some_iff.mp hk
      exact hmax.le (Std.TreeMap.mem_toList_iff_getElem?_eq_some.mpr hinfo')
    · intro name hname
      obtain ⟨info', hinfo', hsame⟩ := Option.map_eq_some_iff.mp hname
      have hmem := Std.TreeMap.mem_toList_iff_getElem?_eq_some.mpr hinfo'
      rcases hmax.before Std.TreeMap.ordered_keys_toList hmem hsame with here | later
      · exact .inl (Prod.mk.inj here).1
      · exact .inr later

/-- A request goes on to the chosen cluster, or back as a rejection when every count is zero; in
both cases it is the one message sent, and the map stays as it is. -/
theorem routes_to_chosen (named : Named s) (shown : Carries m.metaMsg h)
    (normal : h.taskType = .normalTask) (submit : h.taskDirection = .taskSubmit)
    (client : (h.addr .fromID).bytes ≠ []) (cluster : (h.addr .fromClusterID).bytes ≠ []) :
    ((∃ name n, s.reportedCount name = some n ∧ 0 < n) → ∃ c n metaMsg, Chosen s c n ∧
      Carries metaMsg (h.setAddr .toClusterID c) ∧
      ∀ sent t, Step s ⟨.request m, sent⟩ t ↔
        sent = some (c.identity, ⟨metaMsg, m.payloadMsg⟩) ∧ t = s) ∧
    ((∀ name n, s.reportedCount name = some n → n = 0) → ∃ metaMsg, Rejection h metaMsg ∧
      ∀ sent t, Step s ⟨.request m, sent⟩ t ↔
        sent = some ((h.addr .fromClusterID).identity, ⟨metaMsg, (TaskReply.ofSum 0).image⟩) ∧
          t = s) := by
  have hstep : ∀ out, s.taskRouter m = .ok out →
      ∀ sent t, Step s ⟨.request m, sent⟩ t ↔ sent = out ∧ t = s := by
    intro out hrun sent t
    constructor
    · intro hs
      cases hs with
      | request run =>
        rw [hrun] at run
        cases run
        exact ⟨rfl, rfl⟩
    · rintro ⟨rfl, rfl⟩
      exact .request hrun
  obtain ⟨assigned, refused⟩ :=
    SuperBroker.taskRouter_submit (s := s) shown normal submit client cluster
  rcases selectCluster_chosen named with ⟨hnone, hzero⟩ | ⟨c, n, hc, chosen, hsel⟩
  · refine ⟨?_, fun _ => ?_⟩
    · rintro ⟨name, n, hn, hpos⟩
      have := hzero name n hn
      omega
    · obtain ⟨metaMsg, hcarries, hrun⟩ := refused hnone
      exact ⟨metaMsg, rejection_of_carries hcarries, hstep _ hrun⟩
  · have hpos := chosen.positive
    refine ⟨fun _ => ?_, ?_⟩
    · obtain ⟨metaMsg, hcarries, hrun⟩ := assigned c hc n hpos.ne' hsel
      exact ⟨c, n, metaMsg, chosen, hcarries, hstep _ hrun⟩
    · intro hzero
      have := hzero _ _ chosen.counted
      omega

/-- `A` and `B` have both reported one ready worker: the request goes to `A`. -/
theorem routes_to_chosen_tie : ∃ s m metaMsg, Chosen s ⟨[65], by decide, by decide⟩ 1 ∧
    ∀ sent t, Step s ⟨.request m, sent⟩ t ↔
      sent = some (Name.identity ⟨[65], by decide, by decide⟩, ⟨metaMsg, m.payloadMsg⟩) ∧
        t = s := by
  obtain ⟨i, hi, _⟩ := exists_report SuperBroker.init ⟨[65], by decide, by decide⟩ 1
  obtain ⟨j, hj, _⟩ := exists_report ⟨SuperBroker.init.clusterInfoMap.insert [65] i⟩
    ⟨[66], by decide, by decide⟩ 1
  obtain ⟨_, m, _, _, shown⟩ := ClusterBroker.offered_request ⟨[66], by decide, by decide⟩
    ⟨[67], by decide, by decide⟩ 0 TaskRequest.init
  have hcount : ∀ name, (⟨(SuperBroker.init.clusterInfoMap.insert [65] i).insert [66] j⟩ :
      SuperBroker).reportedCount name =
        if [66] = name then some 1 else if [65] = name then some 1 else none := by
    intro name
    rw [SuperBroker.reportedCount_insert _ [66], hj,
      SuperBroker.reportedCount_insert SuperBroker.init [65], hi, SuperBroker.reportedCount_init]
    rfl
  have hcases : ∀ name n, (⟨(SuperBroker.init.clusterInfoMap.insert [65] i).insert [66] j⟩ :
      SuperBroker).reportedCount name = some n → n = 1 ∧ (name = [66] ∨ name = [65]) := by
    intro name n hn
    rw [hcount] at hn
    split at hn
    · rename_i here
      exact ⟨(Option.some.inj hn).symm, .inl here.symm⟩
    · split at hn
      · rename_i here
        exact ⟨(Option.some.inj hn).symm, .inr here.symm⟩
      · cases hn
  have named : Named ⟨(SuperBroker.init.clusterInfoMap.insert [65] i).insert [66] j⟩ := by
    intro name n hn
    rcases (hcases name n hn).2 with rfl | rfl
    · exact ⟨⟨[66], by decide, by decide⟩, by decide, rfl⟩
    · exact ⟨⟨[65], by decide, by decide⟩, by decide, rfl⟩
  have hA := hcount [65]
  obtain ⟨c, n, metaMsg, chosen, _, hstep⟩ := (routes_to_chosen named shown rfl rfl
    (by simp [Header.submitted, Header.setAddr_addr_of_ne]) (by simp)).1 ⟨[65], 1, hA, by decide⟩
  obtain ⟨rfl, _⟩ := hcases _ _ chosen.counted
  have hname : [65] = c.bytes := by
    rcases chosen.first [65] hA with here | later
    · exact here
    · rcases (hcases _ _ chosen.counted).2 with hc | hc
      · rw [hc] at later
        exact absurd later (by decide)
      · exact hc.symm
  obtain rfl : ⟨[65], by decide, by decide⟩ = c := Name.bytes_injective hname
  exact ⟨_, m, metaMsg, chosen, hstep⟩

end SimTools.DataCenter.ClusterChoice
