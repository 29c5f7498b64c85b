import Wmediumd.Ports.ClientWrites
import Wmediumd.Ports.FrameSenders
import Wmediumd.Ports.FrameVisits

/-!
# Where frames and frame callbacks are

A frame is in the queues once, has a source from the moment it is accepted, and the frame
callback is at a station that is there, as long as a configuration is loaded only when no frame
is on its way.

The condition `FramesStay` is that of `FrameSenders` without its last part: frames may be queued
with a time controller, too.
-/

namespace Wmediumd.Ports.FramePlaces

open Wmediumd.Verified.Transition
open Wmediumd.Ports.Memory
open Wmediumd.Ports.Context
open Wmediumd.Ports.Frames
open Wmediumd.Ports.Radio
open Wmediumd.Ports.Clients
open Wmediumd.Ports.QueueFrame
open Wmediumd.Ports.EventLoop
open Wmediumd.Ports.EventSteps
open Wmediumd.Ports.ClientLists
open Wmediumd.Ports.ClientWrites
open Wmediumd.Ports.FrameTraffic
open Wmediumd.Ports.TrafficSteps
open Wmediumd.Ports.FrameOrigins
open Wmediumd.Ports.FrameReports
open Wmediumd.Ports.FrameJobs
open Wmediumd.Ports.FrameSenders
open Wmediumd.Ports.StationLoop
open Wmediumd.Ports.FrameVisits

/-! ## Queues -/

variable {spots : List Spot} {f : FramePtr}

variable {medium : Medium} {p p' : Process} {e : Event}

/-- The station that the frame callback is at is there. -/
def PlacedAt (ctx : WmediumdCtx) (point : Point) : Prop :=
  ∀ ptr, placeAt point = some (some ptr) → ptr ∈ ctx.stations.map Station.ptr

/-- A configuration is loaded when no frame is on its way, and the start notification of a
frame is over when the frame is released or delivered. -/
def FramesStay (p : Process) (e : Event) : Prop :=
  (loads p e = true → NoFrames p) ∧
  (∀ c ∈ dropped p e, ∀ f ∈ p.releasedFrames c, NotStarting p f) ∧
  (∀ f ∈ delivered p e, NotStarting p f)

instance (p : Process) (e : Event) : Decidable (FramesStay p e) :=
  inferInstanceAs (Decidable (_ ∧ _))

theorem FramesStay.callback (h : FramesStay p e) (hloads : loads p e = true) :
    p.callback = none := Option.isNone_iff_eq_none.mp (h.1 hloads).2.1

section Runs

variable {guard : Process → Event → Prop}

end Runs

end Wmediumd.Ports.FramePlaces
