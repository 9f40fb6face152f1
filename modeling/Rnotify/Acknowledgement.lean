import Rnotify.Client.Delivery
import Rnotify.Cluster.Model
import Rnotify.Registrar.Safety

/-! What a client is told about its watch.

The proxy prints what `inotify_add_watch` returned, the registrar forwards the text
as it is and the client subscribes to it. For a descriptor this is what has to
happen: `notify` puts the same text in front of the watch's events. For -1 nothing
else happens, on any hop: the reply says REGISTER_OK and the client subscribes to
`-1` (`truthful_iff`). -/
namespace Rnotify
open Library Registrar Client
open Cluster (replyOf)

/-- The registrar's reply to `rsubscribe` for a path, if it sends one, when `inotify_add_watch` returns `wd`. -/
def fileReply (L : Lookup) (v : Service) (path : CString) (wd : Int) : Option Wire :=
  replyOf (serve L v (register path fun _ => wd)).actions

/-- What a client with some subscriptions is told about one more. -/
structure Truthful (L : Lookup) (v : Service) (replies : List Response) (path : CString) (wd : Int) : Prop where
  /-- A watch that could not be added is not acknowledged, and no filter comes of it. -/
  failure : wd = -1 → ∀ wire, fileReply L v path wd = some wire →
    wire.head?.map Part.frame ≠ some registerOk.bytes ∧
      ∀ rn, rsubscribe (table replies) wire = some rn →
        ∀ addr f, f ∈ filtersAt rn addr → f ∈ filtersAt (table replies) addr
  /-- A watch that was added is known to the registrar and to the client by the text of its descriptor,
  which comes first in the messages with its events. -/
  success : 1 ≤ wd → (subscriptionReceiver (fun _ => wd) (sendText path)).bind recvText = some (decimal wd) ∧
    (∀ wire, fileReply L v path wd = some wire → ∃ rn addresses, rsubscribe (table replies) wire = some rn ∧
      addresses ≠ [] ∧ ∀ addr f, f ∈ filtersAt rn addr ↔
        f ∈ filtersAt (table replies) addr ∨ f = decimal wd ∧ addr ∈ addresses) ∧
    ∀ (e : InotifyEvent) wire, e.wd.toInt = wd → notify e = some wire →
      wire.head?.map Part.frame = some (decimal wd).bytes

variable {L : Lookup}

/-- A registrar that takes the request and has a publisher replies, with REGISTER_OK and the text that the
proxy printed; otherwise it sends nothing. -/
theorem fileReply_cases {seen : Bool} {v : Service} (hv : Ready seen v.registrar) (path : CString) (wd : Int) :
    ((v.registrar.publisherRing = ∅ ∨ v.owed = true) ∧ fileReply L v path wd = none) ∨
      ¬ (v.registrar.publisherRing = ∅ ∨ v.owed = true) ∧
        ∃ addresses, addresses ≠ [] ∧ fileReply L v path wd = some (Reply.wire ⟨wd, addresses⟩) := by
  obtain ⟨s, owed⟩ := v
  cases owed with
  | true =>
    refine Or.inl ⟨Or.inr rfl, ?_⟩
    rw [fileReply, serve_owed L rfl]
    rfl
  | false =>
    by_cases hempty : s.publisherRing = ∅
    · refine Or.inl ⟨Or.inl hempty, ?_⟩
      have hpass := (handle_file L s (register_isFile path fun _ => wd)).trans
        (registerFile_empty L s hempty (fun _ => wd) _ path (part_register path _))
      simp only [fileReply, serve, hpass]
      rfl
    · have hne : s.publisherRing.Nonempty := Finset.nonempty_iff_ne_empty.mpr hempty
      refine Or.inr ⟨by simp [hempty], ?_⟩
      obtain ⟨path', addresses, _, hlisted, hserve⟩ :=
        serve_file L (register_isFile path fun _ => wd) le_rfl hv.consistent hne
      refine ⟨addresses, ?_, by rw [fileReply, hserve]; rfl⟩
      intro hnil
      have hcard := hlisted.length
      rw [hnil, List.length_nil] at hcard
      exact (selected_nonempty L path' hne).card_pos.ne hcard

theorem head_reply (r : Reply) : r.wire.head?.map Part.frame = some registerOk.bytes := head_multiPartSend _ _

/-- A reply to a failed watch is an acknowledgement. -/
theorem not_truthful {v : Service} {replies : List Response} {path : CString} {r : Reply}
    (h : fileReply L v path (-1) = some r.wire) : ¬ Truthful L v replies path (-1) :=
  fun htruth => (htruth.failure rfl _ h).1 (head_reply r)

/-- The topic of a watch's events. -/
theorem head_notify {e : InotifyEvent} {wire : Wire} (h : notify e = some wire) :
    wire.head?.map Part.frame = some (decimal e.wd.toInt).bytes := by
  obtain ⟨_, _, _, hhead⟩ := notify_received h
  rw [hhead]
  rfl

/-- **Success means success.** With a registrar in any state that its requests lead to and a client with any
subscriptions, a path's watch is acknowledged for what it is exactly when it was added, or when the
registrar does not come to reply: it has no publisher, and stops, or it owes an earlier reply. -/
theorem truthful_iff {reqs : List Request} {v : Service}
    (hv : (acceptRegistrations L start reqs).result = .ok v) (replies : List Response) (path : CString)
    (wd : Int) (hwd : wd = -1 ∨ 1 ≤ wd) :
    Truthful L v replies path wd ↔ 1 ≤ wd ∨ v.registrar.publisherRing = ∅ ∨ v.owed = true := by
  obtain ⟨seen, hready⟩ := ready_of_run L reqs false Registrar.initial ready_initial hv
  have hreply := fileReply_cases (L := L) hready path wd
  constructor
  · intro h
    by_contra hnot
    obtain ⟨hsmall, hserves⟩ := not_or.mp hnot
    obtain rfl : wd = -1 := by omega
    obtain ⟨hsilent, _⟩ | ⟨_, addresses, _, hwire⟩ := hreply
    · exact hserves hsilent
    · exact not_truthful hwire h
  · intro hcond
    refine ⟨?_, fun hpos => ⟨exchange_eq _ path, ?_, ?_⟩⟩
    · intro hfail wire hwire
      obtain ⟨_, hnone⟩ | ⟨hserves, _⟩ := hreply
      · rw [hnone] at hwire
        cases hwire
      · exact absurd (hcond.resolve_left (by omega)) hserves
    · intro wire hwire
      obtain ⟨_, hnone⟩ | ⟨_, addresses, hne, hsome⟩ := hreply
      · rw [hnone] at hwire
        cases hwire
      · rw [hsome, Option.some.injEq] at hwire
        refine ⟨addresses.foldl (subscribe (decimal wd)) (table replies), addresses, ?_, hne, ?_⟩
        · rw [← hwire]
          exact rsubscribe_reply (table replies) ⟨wd, addresses⟩
        · intro addr f
          exact mem_filtersAt_addresses (subscribes_table replies).tabled (decimal wd) addresses f addr
    · intro e wire he hnotify
      rw [← he]
      exact head_notify hnotify

/-- A publisher has registered. -/
def onePublisher : List Request := [registerPublisherService (literal "10.0.0.1") 5001 6001]

theorem truthful_iff_onePublisher : ∃ v,
    (acceptRegistrations (hashRing strlen) start onePublisher).result = .ok v ∧
    (Truthful (hashRing strlen) v [] (literal "/srv") 1 ↔
      (1 : Int) ≤ 1 ∨ v.registrar.publisherRing = ∅ ∨ v.owed = true) := by
  have hrun : ∃ v, (acceptRegistrations (hashRing strlen) start onePublisher).result = .ok v := ⟨_, rfl⟩
  obtain ⟨v, hv⟩ := hrun
  exact ⟨v, hv, truthful_iff hv [] (literal "/srv") 1 (Or.inr le_rfl)⟩

/-- A path that cannot be watched: the client gets REGISTER_OK and `-1` for an id. -/
theorem failed_watch_acknowledged : ∃ v,
    (acceptRegistrations (hashRing strlen) start onePublisher).result = .ok v ∧
    fileReply (hashRing strlen) v (literal "/missing") (-1) =
      some (send [registerOk, literal "-1", literal "tcp://10.0.0.1:6001"]) ∧
    ¬ Truthful (hashRing strlen) v [] (literal "/missing") (-1) := by
  have hrun : ∃ v, (acceptRegistrations (hashRing strlen) start onePublisher).result = .ok v ∧
      fileReply (hashRing strlen) v (literal "/missing") (-1) =
        some (Reply.wire ⟨-1, [literal "tcp://10.0.0.1:6001"]⟩) := ⟨_, rfl, by decide⟩
  obtain ⟨v, hv, hreply⟩ := hrun
  exact ⟨v, hv, hreply, not_truthful hreply⟩

end Rnotify
