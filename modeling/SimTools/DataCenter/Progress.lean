/- Module: SimTools/DataCenter/Progress
   digest: The data center does at most nine steps for a request and never stops before its answer. -/

import SimTools.DataCenter.Service
import SimTools.Lib.Accounts

set_option autoImplicit false
set_option relaxedAutoImplicit false

namespace SimTools.DataCenter.Progress

open Lib.Memory
open Lib.Channels
open Lib.Runs
open Lib.Accounts
open ClusterCore
open TaskHeader
open ClusterBroker
open Network
open Itinerary
open Tracking
open Hops

variable {T : Topology} {add : Double → Double → Double} {s t : System} {e : Event}
  {es : List Event}

/-- What a step brings to do: the hops of a request, those after a broker has been constructed, or
those of an alive signal. -/
def brings (e : Event) : Nat :=
  match e.action with
  | .sendRequest _ _ => 9
  | .constructBroker _ => 8
  | .constructWorker _ _ => 4
  | _ => 0

def handles (e : Event) : Bool := e.consumed.isSome

def sends (c i : Name) (e : Event) : Bool := e.action = .sendRequest c i

def receives (c i : Name) (e : Event) : Bool := e.action = .receiveReply c i

theorem work_budget (T : Topology) (add : Double → Double → Double) :
    Budget (Step T add) (fun s => ∃ legs, Tracks T add s legs) load
      (fun e => if handles e then 1 else 0) brings where
  preserved := by
    rintro s e t ⟨legs, h⟩ hs
    obtain ⟨legs', h', _⟩ := h.step hs
    exact ⟨legs', h'⟩
  covered := by
    rintro s e t ⟨legs, h⟩ hs
    by_cases took : e.consumed = none
    · have hhandles : handles e = false := by rw [handles, took, Option.isSome_none]
      rw [hhandles]
      cases hs with
      | handle => cases took
      | statePuller => exact Nat.le_refl _
      | sendRequest | constructWorker =>
        simp only [load, System.deliver, System.setClient, Option.toList_some, List.map_append,
          List.sum_append, List.map_cons, List.map_nil, List.sum_cons, List.sum_nil, hops, brings,
          Bool.false_eq_true, ↓reduceIte]
        omega
      | constructBroker =>
        simp only [load, System.deliver, Option.toList_some, List.map_append, List.sum_append,
          List.map_cons, List.map_nil, List.sum_cons, List.sum_nil, hops, brings,
          Bool.false_eq_true, ↓reduceIte]
        split <;> omega
    · have hlt := load_lt h hs took
      have hhandles : handles e = true := Option.isSome_iff_ne_none.mpr took
      rw [hhandles, if_pos rfl]
      omega

theorem turn_of_step (hs : Step T add s e t) :
    Turn (Service.opened s) (fun c => sends c.1 c.2 e) (fun c => receives c.1 c.2 e)
      (Service.opened t) := by
  cases hs with
  | constructBroker | constructWorker | statePuller =>
    exact .keeps (fun _ => by simp [sends]) (fun _ => by simp [receives])
  | @sendRequest d j taskID task m hc hi idle hm =>
    have hopened := Service.opened_setClient s d j
      ⟨(s.client d j).sent + 1, some (s.nextRequest d j taskID task)⟩
    change Turn _ _ _ (Service.opened (s.setClient d j _))
    rw [hopened]
    refine .sends (by simp [Service.opened, idle]) (fun c => ?_) (fun c => by simp [receives])
    simp [sends, Prod.ext_iff]
  | @handle t a p x rest out src got ready run =>
    by_cases reads : ∃ d j, a = .receiveReply d j
    · obtain ⟨d, j, rfl⟩ := reads
      obtain ⟨answer, _, hv⟩ := bind_eq_ok run
      cases hv
      have hopened := Service.opened_setClient s d j ⟨(s.client d j).sent, none⟩
      have hwaits : Service.opened s (d, j) ≠ none := by
        rw [Service.opened, Ne, Option.map_eq_none_iff]
        exact ready
      change Turn _ _ _ (Service.opened (s.setClient d j _))
      rw [hopened]
      refine .receives hwaits (fun c => ?_) (fun c => by simp [sends])
      simp [receives, Prod.ext_iff]
    · have hclient := Service.react_client run (fun d j he => reads ⟨d, j, he⟩)
      have hsame : Service.opened (t.deliver rest (out.map (fun q => (q.1, ⟨q.2, x.origin⟩)))) =
          Service.opened s := by
        funext c
        rw [Service.opened, System.deliver, hclient, Service.opened]
      rw [hsame]
      refine .keeps (fun c => ?_) (fun c => ?_)
      · have hsends : a ≠ .sendRequest c.1 c.2 := by
          rintro rfl
          simp [source] at src
        simp [sends, hsends]
      · have hreceives : a ≠ .receiveReply c.1 c.2 := fun he => reads ⟨c.1, c.2, he⟩
        simp [receives, hreceives]

theorem idle_of_empty {legs : Request → Option Leg} (h : Tracks T add s legs)
    (empty : s.inFlight = []) (c i : Name) : (s.client c i).outstanding = none := by
  by_contra waits
  obtain ⟨r, hout⟩ := Option.ne_none_iff_exists'.mp waits
  obtain ⟨hcluster, hclient, _⟩ := h.counted c i r hout
  have hwait : legs r ≠ none := by
    refine (h.waiting r).mp ?_
    rw [hcluster, hclient, hout]
  obtain ⟨l, hl⟩ := Option.ne_none_iff_exists'.mp hwait
  obtain ⟨m, honly, _⟩ := h.single r l hl
  simp [carriers, empty] at honly

/-- The handlers run at most nine times for a request, eight for a broker and four for a worker;
a client has as many answers as requests, but for the one that it waits for; and where no handler
can run, in any cluster and however few workers there are, no client waits. -/
theorem answers_every_request (run : Run (Step T add) System.init es s) :
    es.countP handles + load s ≤ (es.map brings).sum ∧
    (∀ c i, es.countP (sends c i) =
      es.countP (receives c i) + (s.client c i).outstanding.toList.length) ∧
    ((∀ e t, Step T add s e t → handles e = false) →
      s.inFlight = [] ∧ ∀ c i, es.countP (sends c i) = es.countP (receives c i)) := by
  have start : ∃ legs, Tracks T add System.init legs := ⟨_, tracks_init T add⟩
  obtain ⟨legs, h⟩ := tracks_of_run run
  have hwork := (work_budget T add).run run start
  have hcalls : ∀ c i, es.countP (sends c i) =
      es.countP (receives c i) + (s.client c i).outstanding.toList.length := by
    intro c i
    have hcount := calls_of_run (fun _ _ _ hs => turn_of_step hs) run (fun _ => rfl) (c, i)
    rwa [Service.opened, Option.toList_map, List.length_map] at hcount
  have hinit : load System.init = 0 := rfl
  refine ⟨?_, hcalls, fun stuck => ?_⟩
  · rw [sum_map_ite, hinit] at hwork
    omega
  · have hempty : s.inFlight = [] := by
      by_contra busy
      obtain ⟨e, t, hs, took⟩ := exists_handler_step h busy
      have hnot := stuck e t hs
      rw [handles, Option.isSome_iff_ne_none.mpr took] at hnot
      cases hnot
    refine ⟨hempty, fun c i => ?_⟩
    rw [hcalls c i, idle_of_empty h hempty, Option.toList_none, List.length_nil, Nat.add_zero]

theorem answers_every_request_first_send : ∃ es s c i,
    Run (Step oneCluster (· + ·)) System.init es s ∧ (s.client c i).outstanding ≠ none ∧
      es.countP handles + load s ≤ (es.map brings).sum := by
  obtain ⟨e, s, hs, hout⟩ := exists_send oneCluster (· + ·) (s := System.init)
    List.mem_cons_self List.mem_cons_self rfl 7 TaskRequest.init
  exact ⟨[e], s, _, _, .single hs, hout.trans_ne (Option.some_ne_none _),
    (answers_every_request (.single hs)).1⟩

end SimTools.DataCenter.Progress
