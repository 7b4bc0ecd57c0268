import ServiceBus.Directory.Feed
import ServiceBus.Proofs.Directory.Runs
import ServiceBus.Proofs.Durable.Traffic

/-!
# A transport that follows the directory

The client of the directory publishes the updates of the peers, and the transport reads them at its
own pace.  It reads the next one when it has seen to the one before, which may take a flush of the
outbox; meanwhile the directory goes on, and the transport may miss some of the updates.

A `Liaison` is the client, the feed and the traffic at the link, and an `Incident` is what happens
next at one of them.  For the traffic, incidents are occurrences at which the directory is seen as
the client knows it just then: that is `Liaison.traffic_run`.
-/

set_option autoImplicit false

namespace ServiceBus

namespace Directory.Situation

/-- The notices that the client gives at an act. -/
def notices (s : Situation) : Act → List Notice
  | .call call now seed => (s.client.begin call now seed).2.1
  | .answer place answer now =>
    match s.waiting[place]? with
    | some a => (s.client.resume a answer now).2.1
    | none => []
  | .event e => (s.client.handle e).2

/-- The updates that the client publishes at an act. -/
def updates (s : Situation) (act : Act) : List Update :=
  (s.notices act).filterMap fun
    | .updated u => some u
    | _ => none

end Directory.Situation

namespace Durable

open Directory (View Update Feed Reading)

/-- An errand of whoever follows the directory. -/
def Errand.follows : Errand → Bool
  | .hear _ | .catchUp => true
  | _ => false

/-- The holder of the link is whoever follows the directory. -/
def Holder.follows : Holder → Bool
  | .arrived errand => errand.follows
  | .flushing .. => true
  | _ => false

/-- Whoever follows the directory has the link, or stands in line for it. -/
def Traffic.followerBusy (x : Traffic) : Bool := x.holder.follows || x.line.any Errand.follows

/-- A client of the directory, and a transport that follows it. -/
structure Liaison where
  /-- The client, and its calls that wait for an answer. -/
  situation : Directory.Situation
  /-- The updates that the client has published. -/
  feed : Feed
  /-- How far the transport has read them, once it was started. -/
  place : Option Nat := none
  /-- The transport, and what goes on around its link. -/
  traffic : Traffic

/-- What happens next. -/
inductive Incident
  /-- The surroundings of the client act upon it. -/
  | act (act : Directory.Act)
  /-- The transport is started: it follows the directory from now on. -/
  | follow
  /-- The transport reads in the feed. -/
  | read
  /-- Somebody sends a message. -/
  | send (message : Envelope) (targets : List Peer)
  /-- Somebody is done with a message. -/
  | ack (message : Envelope)
  /-- The persistence service is heard to be about to stop. -/
  | stopping (sender : Origin)
  /-- The carrier does one of its jobs. -/
  | settle (place : Nat)
  /-- The holder of the link goes on. -/
  | proceed

/-- Updates were missed. -/
def Occurrence.isMissed : Occurrence → Bool
  | .missed => true
  | _ => false

namespace Liaison

/-- A client and a transport that were just made, when some instances of peers exist. -/
def start (settings : Settings) (clock : Directory.Clock) (roster : Roster) (origin : Origin)
    (outside : Outside) : Liaison where
  situation := .start settings clock roster
  feed := .ofSize settings.peerUpdateQueueSize
  traffic := .start settings origin outside

/-- The directory as the transport sees it. -/
def view (x : Liaison) : View := x.situation.client.registry.view

/-- What the transport finds in the feed, and how far it has read then.  It does not read before it
was started, or while it sees to an update. -/
def reading? (x : Liaison) : Option (Reading × Nat) :=
  if x.traffic.followerBusy then none else x.place.map x.feed.read

/-- What an incident is for the traffic. -/
def occurrence? (x : Liaison) : Incident → Option Occurrence
  | .act _ | .follow => none
  | .read =>
    match x.reading? with
    | some (.missed _, _) => some .missed
    | some (.update u, _) => some (.hear u)
    | _ => none
  | .send message targets => some (.send x.view message targets)
  | .ack message => some (.ack message)
  | .stopping sender => some (.stopping sender)
  | .settle place => some (.settle place)
  | .proceed => some (.proceed x.view)

/-- What is so after an incident. -/
def step (x : Liaison) (incident : Incident) : Liaison where
  situation :=
    match incident with
    | .act act => x.situation.step act
    | _ => x.situation
  feed :=
    match incident with
    | .act act => (x.situation.updates act).foldl Feed.publish x.feed
    | _ => x.feed
  place :=
    match incident with
    | .follow => x.place.or (some x.feed.sent.size)
    | .read => (x.reading?.map Prod.snd).or x.place
    | _ => x.place
  traffic := (x.occurrence? incident).elim x.traffic x.traffic.step

/-- What is so after several incidents. -/
def run (x : Liaison) (incidents : List Incident) : Liaison := incidents.foldl step x

/-- What several incidents are for the traffic. -/
def occurrences : Liaison → List Incident → List Occurrence
  | _, [] => []
  | x, incident :: incidents =>
    (x.occurrence? incident).toList ++ (x.step incident).occurrences incidents

theorem traffic_step (x : Liaison) (incident : Incident) :
    (x.step incident).traffic = (x.occurrence? incident).elim x.traffic x.traffic.step := rfl

/-- Whoever has missed updates comes for the link, to make up for them. -/
theorem traffic_read_of_missed {x : Liaison} {count next : Nat}
    (h : x.reading? = some (.missed count, next)) :
    (x.step .read).traffic = x.traffic.request .catchUp := by
  rw [traffic_step, occurrence?, h]
  rfl

/-- For the traffic, incidents are occurrences. -/
theorem traffic_run (x : Liaison) (incidents : List Incident) :
    (x.run incidents).traffic = x.traffic.run (x.occurrences incidents) := by
  induction incidents generalizing x with
  | nil => rfl
  | cons incident incidents ih =>
    have hstep : (x.step incident).traffic = x.traffic.run (x.occurrence? incident).toList := by
      rw [traffic_step]
      cases x.occurrence? incident <;> rfl
    rw [run, List.foldl_cons, occurrences, Traffic.run, List.foldl_append]
    exact (ih (x.step incident)).trans (congrArg (Traffic.run · _) hstep)

end Liaison

end Durable

end ServiceBus
