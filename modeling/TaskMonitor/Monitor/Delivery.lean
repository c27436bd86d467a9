import TaskMonitor.Event.Report
import TaskMonitor.Monitor.Answers

/-! What a client is told of the processes.

What a step is to the processes, their events and the registry is a step of these (`system_steps`), whatever connections
and sources do. So the answer that goes to the descriptor of a client tells of the processes at the last tick
(`procInfo_delivered`). -/
namespace TaskMonitor.Whole
open Collector Transition

variable {F : Type} [Zero F] {L : Type → Type} [DeferredList L] {scfg : ServiceConfig} {cfg : Config}
  {calls : SysProc.Calls F} {held : Bool} {pressureFile : String → Bool} {w : World} {x₀ x : Readings}
  {s t u v : Whole F L} {l : Label}

/-- What a step is to the processes, but for requests and answers. -/
def Label.system : Label → Option System.Label
  | .tick lane _ x => some (.lane lane x)
  | .process l => some l
  | .noBuffers x => some (.noBuffers x)
  | .updateProcessList x => some (.updateProcessList x)
  | .connection _ | .dispatch .. | .dispatchStartup | .expire | .dispatchRegistry _ | .dispatchStats _ => none

/-- The condition holds of what a step is to the processes. -/
def Follows (C : System L → System.Label → Prop) (s : Whole F L) (l : Label) : Prop :=
  ∀ k, l.system = some k → C s.stats.system k

/-- What a callback asks is to the processes a request to the registry, or nothing. -/
theorem put_own {rq : ICollector × ModuleRequest} {k : EventStats.Label} {own : System.Label} (hk : k ∈ put rq)
    (ho : k.own = some own) : ∃ request, own = .collect request := by
  unfold put at hk
  split at hk
  · obtain rfl := List.mem_singleton.mp hk
    exact ⟨_, (Option.some.inj ho).symm⟩
  · obtain rfl := List.mem_singleton.mp hk
    cases ho
  · cases hk

theorem system_step {C : System L → System.Label → Prop} (hask : ∀ s rq, C s (.collect rq))
    (hsend : ∀ s, C s .dispatch) (hf : Follows C s l) (h : step scfg cfg calls s l = some t) :
    Steps (System.step (built scfg cfg)) C s.stats.system t.stats.system := by
  obtain ⟨_, _, _, hstats⟩ := step_parts h
  have hsame (h : s.stats = t.stats) : Steps (System.step (built scfg cfg)) C s.stats.system t.stats.system := by
    rw [h]
    exact .refl
  cases l with
  | connection l =>
    refine EventStats.system_steps (.of_run (.of_forall (fun k hk e own ho => ?_) _) hstats)
    obtain ⟨rq, _, hk⟩ := List.mem_flatMap.mp hk
    obtain ⟨request, rfl⟩ := put_own hk ho
    exact hask _ _
  | tick lane pushed x => exact .single (hf _ rfl) (system_stats hstats).1
  | process l => exact .single (hf _ rfl) (system_stats hstats).1
  | noBuffers x => exact .single (hf _ rfl) (system_stats hstats).1
  | updateProcessList x => exact .single (hf _ rfl) (system_stats hstats).1
  | dispatchRegistry collector => exact .single (hsend _) (system_stats hstats).1
  | dispatchStats c =>
    have hsystem : t.stats.system = s.stats.system := EventStats.system_carries _ _ _ (run_single hstats)
    rw [hsystem]
    exact .refl
  | dispatch m reads now => exact hsame (Option.some.inj hstats)
  | dispatchStartup => exact hsame (Option.some.inj hstats)
  | expire => exact hsame (Option.some.inj hstats)

/-- **Processes, events and registry take their own steps**, whatever connections and sources do. -/
theorem system_steps {C : System L → System.Label → Prop} (hask : ∀ s rq, C s (.collect rq)) (hsend : ∀ s, C s .dispatch)
    {D : Whole F L → Label → Prop} (hd : ∀ s l, D s l → Follows C s l) (h : Steps (step scfg cfg calls) D s t) :
    Steps (System.step (built scfg cfg)) C s.stats.system t.stats.system :=
  h.simulate (fun s => s.stats.system) fun s l _ hl hs => system_step hask hsend (hd s l hl) hs

/-- No event is lost, every read of a live process succeeds, and an exec to an allowed name is announced. -/
def Lossless (scfg : ServiceConfig) (cfg : Config) (s : Whole F L) (l : Label) : Prop :=
  Follows (fun s k => System.Lossless s k ∧ System.Announced (built scfg cfg) s k) s l

omit [DeferredList L] in
theorem follows_reads (h : l.reads = none) : Follows (fun _ k => k.reads = none) s l := by
  intro k hk
  cases l with
  | tick lane pushed x => cases h
  | process l =>
    obtain rfl := Option.some.inj hk
    exact h
  | noBuffers x =>
    obtain rfl := Option.some.inj hk
    rfl
  | updateProcessList x => cases h
  | _ => cases hk

/-- **A client is told, on its own descriptor, of the processes at the last tick**, where until then nothing was lost and
every exec to an allowed name was announced. -/
theorem procInfo_delivered {collector : Option ICollector} {c : ICollector} {pushed : SysProc → Bool}
    (he : Registry.eventDriven (built scfg cfg) = true) (hx₀ : ∀ pid, (w.find pid).isSome → x₀.ReliableFor pid)
    (hs : Steps (step scfg cfg calls) (fun s l => Native scfg s l ∧ Lossless scfg cfg s l)
      (start scfg cfg held pressureFile true w x₀ : Whole F L) s)
    (hd : s.stats.system.socket = [])
    (hx : ∀ pid, (s.stats.system.world.find pid).isSome → x.ReliableFor pid)
    (htick : step scfg cfg calls s (.tick .pace pushed x) = some t)
    (hrun : Steps (step scfg cfg calls) (fun s l => Native scfg s l ∧ l.reads = none) t u)
    (hanswer : step scfg cfg calls u (.dispatchRegistry collector) = some v)
    (hc : (c, .procRegistry .collectAndSendProcInfo) ∈ u.handled (.dispatchRegistry collector)) :
    u.daemon.service.owner c.fd = some c ∧
      ∃ entries ps, (u.stats.system.registry.dispatch (built scfg cfg)).map Prod.snd = some [.procInfo entries] ∧
        ps.Perm (s.stats.system.world.procs.filter fun p => !Registry.isBlacklisted (built scfg cfg) p.name) ∧
        List.Forall₂ (System.Shows (built scfg cfg) x) ps entries := by
  have hlinked : Linked scfg u := by
    have hs' := hs.invariant (fun _ _ _ hk hn hl => linked_step _ _ _ hk hn.1 hl) linked_start
    exact hrun.invariant (fun _ _ _ hk hn hl => linked_step _ _ _ hk hn.1 hl) (linked_step s (.tick .pace pushed x) t hs' trivial htick)
  have hsystem : Steps (System.step (built scfg cfg))
      (fun s k => System.Lossless s k ∧ System.Announced (built scfg cfg) s k) (System.start (built scfg cfg) w x₀)
      s.stats.system :=
    system_steps (fun _ _ => ⟨⟨rfl, fun _ _ _ h => by cases h⟩, trivial⟩)
      (fun _ => ⟨⟨rfl, fun _ _ _ h => by cases h⟩, trivial⟩) (fun _ _ h => h.2) hs
  have hticked := (system_stats (step_parts htick).2.2.2).1
  have hquiet := system_steps (C := fun _ k => k.reads = none) (fun _ _ => rfl) (fun _ => rfl)
    (fun _ _ h => follows_reads h.2) hrun
  obtain ⟨ps, hperm, hshows⟩ := System.infos_exact he hx₀ hsystem hd hx hticked hquiet
  refine ⟨written_own hlinked hanswer (List.mem_map_of_mem hc), Registry.infos u.stats.system.registry, ps, ?_, hperm, hshows⟩
  -- The request of the client is the next of the registry.
  obtain ⟨asked, hasked, hc⟩ := List.mem_flatMap.mp hc
  obtain ⟨request, hhead, hsends⟩ := Option.bind_eq_some_iff.mp (Option.mem_toList.mp hasked)
  obtain ⟨_, _, hrq⟩ := List.mem_map.mp hc
  obtain ⟨_, hasks⟩ := Option.ite_none_left_eq_some.mp hsends
  obtain rfl := Option.some.inj hasks
  obtain ⟨rest, hq⟩ := List.head?_eq_some_iff.mp hhead
  exact System.infos_sent hq (ModuleRequest.procRegistry.inj (Prod.mk.inj hrq).2)

/-! ### A process that exits after the tick -/

/-- A child of init takes an allowed name, and both its events are handled. -/
def shellStarted : List Label := System.shellStarted.map .process

/-- A client connects and asks, and the shell is gone. -/
def shellExits : List Label :=
  [.connection (.accept .TCP 5 (some []) 0),
    .connection (.readable ⟨0, .TCP, 5⟩ [.envelope true (request .getProcInfo)] 1), .process (.exit 5 1 false)]

/-- All of it, and the answer. -/
def afterExit : Option (Whole Nat Recorded × Whole Nat Recorded × Whole Nat Recorded × Whole Nat Recorded) :=
  (run fullStep started shellStarted).bind fun s =>
    (fullStep s (.tick .pace (fun _ => true) System.busy)).bind fun t =>
      (run fullStep t shellExits).bind fun u =>
        (fullStep u (.dispatchRegistry (some ⟨0, .TCP, 5⟩))).map fun v => (s, t, u, v)

theorem quiet_process {s : Whole Nat Recorded} {k : System.Label} (hl : k.lost = false)
    (hr : k.reads = none ∨ k.reads = some .quiet)
    (ha : System.Announced System.trackingConfig s.stats.system k) :
    Native Service.fullService s (.process k) ∧ Lossless Service.fullService System.trackingConfig s (.process k) := by
  refine ⟨trivial, fun k' hk' => ?_⟩
  obtain rfl := Option.some.inj hk'
  exact ⟨System.lossless_quiet _ hl hr, ha⟩

theorem meets_shellStarted :
    Meets fullStep
      (fun s l => Native Service.fullService s l ∧ Lossless Service.fullService System.trackingConfig s l) started
      shellStarted := by
  refine ⟨quiet_process rfl (.inl rfl) trivial, fun s₁ h₁ => ⟨quiet_process rfl (.inr rfl) trivial, fun s₂ h₂ => ?_⟩⟩
  have hlisted : ((fullStep started (.process (.fork 1 5 7 false))).bind fun s =>
      (fullStep s (.process (.recv .quiet))).map fun s => s.stats.system.registry.hasProc 5) = some true := by
    decide +kernel
  rw [h₁, Option.bind_some, h₂] at hlisted
  exact ⟨quiet_process rfl (.inl rfl) (.inr (.inl (Option.some.inj hlisted))), fun s₃ _ =>
    ⟨quiet_process rfl (.inr rfl) trivial, fun _ _ => trivial⟩⟩

theorem meets_shellExits (t : Whole Nat Recorded) :
    Meets fullStep (fun s l => Native Service.fullService s l ∧ l.reads = none) t shellExits :=
  ⟨⟨trivial, rfl⟩, fun _ _ => ⟨⟨rfl, rfl⟩, fun _ _ => ⟨⟨trivial, rfl⟩, fun _ _ => trivial⟩⟩⟩

theorem procInfo_delivered_exited :
    ∃ s t u v, afterExit = some (s, t, u, v) ∧ u.daemon.service.owner 5 = some ⟨0, .TCP, 5⟩ ∧
      ∃ entries ps, (u.stats.system.registry.dispatch (built Service.fullService System.trackingConfig)).map Prod.snd =
          some [.procInfo entries] ∧
        ps.Perm (s.stats.system.world.procs.filter fun p =>
          !Registry.isBlacklisted (built Service.fullService System.trackingConfig) p.name) ∧
        List.Forall₂ (System.Shows (built Service.fullService System.trackingConfig) System.busy) ps entries := by
  obtain ⟨⟨s, t, u, v⟩, hafter⟩ := Option.isSome_iff_exists.mp (by decide +kernel : afterExit.isSome = true)
  have hend : afterExit.map (fun r =>
      (r.1.stats.system.socket, r.2.2.1.handled (.dispatchRegistry (some ⟨0, .TCP, 5⟩)))) =
      some ([], [(⟨0, .TCP, 5⟩, .procRegistry .collectAndSendProcInfo)]) := by
    decide +kernel
  rw [hafter] at hend
  simp only [Option.map_some, Option.some.injEq, Prod.mk.injEq] at hend
  refine ⟨s, t, u, v, hafter, ?_⟩
  obtain ⟨s', hs, hafter⟩ := Option.bind_eq_some_iff.mp hafter
  obtain ⟨t', ht, hafter⟩ := Option.bind_eq_some_iff.mp hafter
  obtain ⟨u', hu, hafter⟩ := Option.bind_eq_some_iff.mp hafter
  obtain ⟨v', hv, hafter⟩ := Option.map_eq_some_iff.mp hafter
  simp only [Prod.mk.injEq] at hafter
  obtain ⟨rfl, rfl, rfl, rfl⟩ := hafter
  exact procInfo_delivered rfl (fun pid _ => Readings.quiet_reliable pid) (.of_run meets_shellStarted hs) hend.1
    (fun _ _ _ => rfl) ht (.of_run (meets_shellExits _) hu) hv (hend.2 ▸ List.mem_singleton_self _)

end TaskMonitor.Whole
