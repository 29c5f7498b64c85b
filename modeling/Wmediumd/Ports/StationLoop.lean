import Wmediumd.Ports.TrafficSteps
import Wmediumd.Ports.StationAddrs

/-!
# The loop over the stations

`wmediumd_deliver_frame` goes through `ctx->stations` and keeps its place while a client is
waited for.  The stations of a daemon are different structures, and those of a configuration
that is loaded meanwhile are new ones, so a place is never taken for another one: the stations
after it are those that the loop has still to come to (`stationsAfter_next`).
-/

namespace Wmediumd.Ports.StationLoop

open Wmediumd.Ports.Memory
open Wmediumd.Ports.Context
open Wmediumd.Ports.Config
open Wmediumd.Ports.ConfigLoad
open Wmediumd.Ports.ConfigReload
open Wmediumd.Ports.Frames
open Wmediumd.Ports.Radio
open Wmediumd.Ports.Clients
open Wmediumd.Ports.DeliverFrame
open Wmediumd.Ports.ApiHandler
open Wmediumd.Ports.EventLoop
open Wmediumd.Ports.EventSteps
open Wmediumd.Ports.FrameTraffic
open Wmediumd.Ports.TrafficSteps

/-! ## The stations of a process -/

/-- A process whose stations are different structures. -/
structure SetUp (p : Process) : Prop extends Fresh p where
  ptrs : (p.daemon.ctx.stations.map Station.ptr).Nodup
  allocated : ∀ station ∈ p.daemon.ctx.stations, station.ptr ≤ p.daemon.lastPtr

theorem startDaemon_lastPtr {env : Env} {path : CString} {file : ConfigFile} {w : World}
    (h : startDaemon env path file none = .ok (some w)) : w.lastPtr = countIds file := by
  have hfile := (startDaemon_cases h).1
  unfold startDaemon at h
  rw [loadConfig_ok path (w := World.initial) rfl (owned_zero 0) hfile] at h
  obtain ⟨⟨w0, r⟩, hload, h⟩ := bind_eq_ok.mp h
  obtain ⟨s, _, hok⟩ := bind_eq_ok.mp hload
  cases hok
  simp only [ne_eq, not_true_eq_false, if_false] at h
  have hlast : World.initial.lastPtr + countIds file = countIds file := Nat.zero_add _
  split at h
  · obtain ⟨s', _, h⟩ := bind_eq_ok.mp h
    cases h
    exact hlast
  · cases h
    exact hlast

/-- A started daemon is set up. -/
theorem setUp_of_startDaemon {env : Env} {path : CString} {file : ConfigFile} {w : World}
    (h : startDaemon env path file none = .ok (some w)) (useNetlink ctrl : Bool) :
    SetUp (startedProcess w useNetlink ctrl) := by
  obtain ⟨_, hctx, _⟩ := startDaemon_cases h
  refine { fresh_of_startDaemon h useNetlink ctrl with ptrs := ?_, allocated := ?_ }
  · show (w.ctx.stations.map Station.ptr).Nodup
    rw [hctx, loadedCtx_map (F := Station.ptr) (fun _ _ _ _ => rfl) env path file 0 rfl,
      ConfigLoad.newStations_ptr]
    exact List.nodup_range'
  · intro station hstation
    have hmem : station ∈ (loadedCtx env path file 0 (WmediumdCtx.zero 0)).stations :=
      hctx ▸ hstation
    have hbelow : station.ptr ≤ 0 + countIds file :=
      (loadedCtx_fresh env path file 0 rfl station hmem).below
    show station.ptr ≤ w.lastPtr + 1
    rw [startDaemon_lastPtr h, ← Nat.zero_add (countIds file)]
    exact hbelow.trans (Nat.le_succ _)

/-! ## The addresses of the stations -/

variable {medium : Medium} {p p' : Process} {e : Event}

/-- Only a reload replaces the stations. -/
theorem spots_of_step {t t' : Traffic} {a : Act} (h : Step t a t') (ha : a ≠ .reload) :
    t'.spots.map Spot.ptr = t.spots.map Spot.ptr := by
  cases h with
  | reload spots scheduler n => exact absurd rfl ha
  | link plan rest =>
      dsimp only
      rw [List.map_map]
      refine List.map_congr_left fun spot _ => ?_
      simp only [Function.comp, Spot.append]
      split <;> rfl
  | remove c callback marks =>
      dsimp only
      rw [List.map_map]
      exact List.map_congr_left fun spot _ => rfl
  | deliver f =>
      dsimp only
      rw [List.map_map]
      exact List.map_congr_left fun spot _ => rfl
  | goes | time | accept | addStart | addFrame | periodic | start | startOver | free => rfl

theorem ptrs_traffic (p : Process) :
    (traffic p).spots.map Spot.ptr = p.daemon.ctx.stations.map Station.ptr := by
  simp [traffic, List.map_map, Function.comp_def, spotOf]

/-- The stations of a configuration that has been reloaded are new. -/
theorem ptrs_of_reload {env : Env} {u v : Nat → Fin 6 → BitVec 32}
    {files : CString → ConfigFile} {path : CString} {w w' : World} {r : Int}
    (h : processReloadConfigMessage (reloadEnv env u v) files path w = .ok (w', r)) :
    w'.ctx = w.ctx ∨ (w'.ctx.stations.map Station.ptr).Nodup ∧
      ∀ station ∈ w'.ctx.stations, w.lastPtr < station.ptr ∧ station.ptr ≤ w'.lastPtr := by
  rcases processReload_cases h with ⟨_, hctx, _⟩ | ⟨hr, hload, _, hnew, _⟩
  · exact Or.inl hctx
  · refine Or.inr ⟨?_, fun station hstation => (hnew station hstation).2.2⟩
    have hsteps := h
    unfold processReloadConfigMessage at hsteps
    obtain ⟨⟨w1, valid⟩, hval, hsteps⟩ := bind_eq_ok.mp hsteps
    cases valid with
    | false =>
        cases hsteps
        exact absurd hr (by decide)
    | true =>
        obtain ⟨w2, hclear, _⟩ := bind_eq_ok.mp hsteps
        have howned : Owned w.ctx := validateConfig_ctx hval ▸ owned_of_clearConfig hclear
        rw [processReload_eq howned hload] at h
        obtain ⟨s, _, h⟩ := bind_eq_ok.mp h
        obtain ⟨s', _, h⟩ := bind_eq_ok.mp h
        cases h
        show ((loadedCtx (Env.withOctets env v) path (files path) _ _).stations.map _).Nodup
        rw [loadedCtx_map (F := Station.ptr) (fun _ _ _ _ => rfl) _ _ _ _ rfl,
          ConfigLoad.newStations_ptr]
        exact List.nodup_range'

theorem ptrs_kept (hnested : Nested p) (hmove : Moves medium p e p') (hloads : loads p e = false) :
    p'.daemon.ctx.stations.map Station.ptr = p.daemon.ctx.stations.map Station.ptr := by
  obtain ⟨a, hstep, hexp⟩ := explained_of_moves hnested hmove
  have ha : a ≠ .reload := by
    rintro rfl
    exact absurd (show loads p e = true from hexp) (by simp [hloads])
  rw [← ptrs_traffic, ← ptrs_traffic, spots_of_step hstep ha]

/-- **What an event does to the addresses of the stations.** -/
theorem ptrs_of_moves (hnested : Nested p) (hmove : Moves medium p e p') :
    p'.daemon.ctx.stations.map Station.ptr = p.daemon.ctx.stations.map Station.ptr ∨
      (p'.daemon.ctx.stations.map Station.ptr).Nodup ∧
        ∀ station ∈ p'.daemon.ctx.stations,
          p.daemon.lastPtr < station.ptr ∧ station.ptr ≤ p'.daemon.lastPtr := by
  by_cases hloads : loads p e = true
  · cases hmove with
    | control c req d response hwaits hserves hd =>
        cases req with
        | reload env u v files given =>
            obtain ⟨w, r, path, hw, rfl⟩ := handleReload_cases hd
            rcases ptrs_of_reload hw with hctx | hnew
            · exact Or.inl (congrArg (fun ctx => ctx.stations.map Station.ptr) hctx)
            · exact Or.inr hnew
        | _ => cases hloads
    | _ => cases hloads
  · exact Or.inl (ptrs_kept hnested hmove (by simpa using hloads))

/-! ## The loop over the stations -/

/-- The stations that come after a place of the loop. -/
def stationsAfter (stations : List StationPtr) : Option StationPtr → List StationPtr
  | none => stations
  | some pos => (stations.dropWhile fun ptr => ptr ≠ pos).tail

theorem stationsAfter_eq {front back : List StationPtr} {ptr : StationPtr}
    (h : (front ++ ptr :: back).Nodup) :
    stationsAfter (front ++ ptr :: back) (some ptr) = back := by
  have hfront : ∀ x ∈ front, x ≠ ptr := fun x hx heq =>
    (List.nodup_append.mp h).2.2 x hx ptr List.mem_cons_self heq
  unfold stationsAfter
  dsimp only
  rw [List.dropWhile_append_of_pos (by simpa using hfront),
    List.dropWhile_cons_of_neg (by simp), List.tail_cons]

theorem mem_of_stationsAfter {stations : List StationPtr} {pos : Option StationPtr}
    {ptr : StationPtr} (h : ptr ∈ stationsAfter stations pos) : ptr ∈ stations := by
  cases pos with
  | none => exact h
  | some pos =>
      exact (List.dropWhile_suffix _).subset (List.mem_of_mem_tail h)

theorem not_mem_stationsAfter {stations : List StationPtr} {ptr : StationPtr}
    (hnodup : stations.Nodup) : ptr ∉ stationsAfter stations (some ptr) := by
  intro hmem
  obtain ⟨front, back, rfl⟩ := List.append_of_mem (mem_of_stationsAfter hmem)
  rw [stationsAfter_eq hnodup] at hmem
  exact (List.nodup_cons.mp (List.nodup_append.mp hnodup).2.1).1 hmem

/-- None of the stations comes after one that is older than all of them. -/
theorem stationsAfter_new {stations : List StationPtr} {ptr : StationPtr}
    (h : ∀ b ∈ stations, ptr < b) : stationsAfter stations (some ptr) = [] := by
  have hnone : stations.dropWhile (fun b => decide (b ≠ ptr)) = [] := by
    rw [List.dropWhile_eq_nil_iff]
    exact fun b hb => decide_eq_true (h b hb).ne'
  unfold stationsAfter
  dsimp only
  rw [hnone]
  rfl

/-- **The station that the loop comes to is the first one after its place.** -/
theorem stationsAfter_next {ctx : WmediumdCtx} {pos : Option StationPtr} {station : Station}
    (hnodup : (ctx.stations.map Station.ptr).Nodup)
    (h : Process.nextStation ctx pos = .ok (some station)) :
    stationsAfter (ctx.stations.map Station.ptr) pos =
      station.ptr :: stationsAfter (ctx.stations.map Station.ptr) (some station.ptr) := by
  cases pos with
  | none =>
      have hhead : ctx.stations.head? = some station := Except.ok.inj h
      cases hstations : ctx.stations with
      | nil => simp [hstations] at hhead
      | cons first rest =>
          obtain rfl : first = station := by simpa [hstations] using hhead
          rw [hstations, List.map_cons] at hnodup
          have hafter := @stationsAfter_eq [] (rest.map Station.ptr) first.ptr hnodup
          rw [List.nil_append] at hafter
          rw [List.map_cons, hafter]
          rfl
  | some pos =>
      unfold Process.nextStation at h
      dsimp only at h
      split at h
      · cases h
      · next here rest hdrop =>
          obtain ⟨front, hfront⟩ := List.dropWhile_suffix (l := ctx.stations)
            fun station : Station => decide (station.ptr ≠ pos)
          rw [hdrop] at hfront
          cases rest with
          | nil => cases h
          | cons next rest =>
              cases h
              have hptrs : ctx.stations.map Station.ptr =
                  (front.map Station.ptr ++ [here.ptr]) ++ station.ptr :: rest.map Station.ptr := by
                rw [← hfront]
                simp
              have hafter : stationsAfter (ctx.stations.map Station.ptr) (some pos) =
                  station.ptr :: rest.map Station.ptr := by
                unfold stationsAfter
                dsimp only
                rw [List.dropWhile_map, show ((fun ptr => decide (ptr ≠ pos)) ∘ Station.ptr) =
                  fun station => decide (station.ptr ≠ pos) from rfl, hdrop]
                rfl
              rw [hptrs] at hnodup hafter ⊢
              rw [hafter, stationsAfter_eq hnodup]

theorem nextStation_mem {ctx : WmediumdCtx} {pos : Option StationPtr} {station : Station}
    (h : Process.nextStation ctx pos = .ok (some station)) : station ∈ ctx.stations := by
  cases pos with
  | none => exact List.mem_of_mem_head? (Except.ok.inj h)
  | some pos =>
      unfold Process.nextStation at h
      dsimp only at h
      split at h
      · cases h
      · next here rest hdrop =>
          refine (List.dropWhile_suffix fun station => decide (station.ptr ≠ pos)).subset ?_
          rw [hdrop]
          exact List.mem_cons_of_mem _ (List.mem_of_mem_head? (Except.ok.inj h))

/-- The copy that is made in a station's turn is for this station. -/
theorem copy_station {d d' : Daemon} {frame : Frame} {station : Station} {copy : Copy}
    (h : deliverStation medium d frame station = .ok (d', some copy)) :
    copy.station = station.ptr := by
  obtain ⟨sender, _, h⟩ := bind_eq_ok.mp h
  split at h
  · cases h
  · split at h
    · -- A multicast frame: the copy comes after every check.
      obtain ⟨snr, _, h⟩ := bind_eq_ok.mp h
      obtain ⟨⟨fading, rng⟩, _, h⟩ := bind_eq_ok.mp h
      dsimp only at h
      split at h
      · cases h
      · obtain ⟨⟨ctx, interferes⟩, _, h⟩ := bind_eq_ok.mp h
        dsimp only at h
        split at h
        · cases h
        · obtain ⟨⟨offset, rng'⟩, _, h⟩ := bind_eq_ok.mp h
          obtain ⟨rate, _, h⟩ := bind_eq_ok.mp h
          obtain ⟨prob, _, h⟩ := bind_eq_ok.mp h
          split at h <;> cases h
          rfl
    · split at h
      · obtain ⟨⟨ctx, interferes⟩, _, h⟩ := bind_eq_ok.mp h
        dsimp only at h
        split at h <;> cases h
        rfl
      · cases h

end Wmediumd.Ports.StationLoop
