import GridKernel.Proofs.Session.History

namespace GridKernel

def CacheStats.requests (s : CacheStats) : Nat := s.hits + s.misses + s.waits

namespace Cache

variable {κ α : Type} [DecidableEq κ]

theorem lookup_requests (c : Cache κ α) (key : κ) : (c.lookup key).1.stats.requests = c.stats.requests + 1 := by
  rcases c.lookup_parts key with ⟨_, _, _, after⟩ | ⟨_, _, _, after⟩ | ⟨_, _, after⟩ <;>
    simp only [after, CacheStats.requests] <;> omega

theorem evict_requests (capacity : Nat) (order : List κ) (c : Cache κ α) :
    (evict capacity order c).stats.requests = c.stats.requests := by
  induction order generalizing c with
  | nil => rfl
  | cons oldest rest ih =>
    unfold evict
    split
    · rfl
    · split
      · exact ih _
      · exact ih c

theorem settle_requests (c : Cache κ α) (key : κ) (outcome : Outcome κ α) :
    (c.settle key outcome).stats.requests = c.stats.requests := by
  unfold settle
  split
  · dsimp only
    split
    · rfl
    · exact evict_requests _ _ _
  · rfl

end Cache

-- What the launch of a program leaves of a device: only the counters of launches and bytes move.
def Device.Launched (d after : Device) (launches : Nat) : Prop :=
  ∃ uploaded, after = { d with dispatches := d.dispatches + launches, uploaded := uploaded }

namespace Launch

theorem uploadAll_device (uploads : List Bytes) (d : Device) : d.Launched (uploadAll uploads d).1 0 := by
  induction uploads generalizing d with
  | nil => exact ⟨_, rfl⟩
  | cons bytes rest ih =>
    unfold uploadAll
    cases sent : d.upload bytes with
    | error e => exact ⟨_, rfl⟩
    | ok after =>
      unfold Device.upload at sent
      split at sent
      · cases sent
      · split at sent
        · cases sent
        · cases sent
          exact ih _

theorem dispatch_device (p : DeviceProgram) (d : Device) (buffers : List Bytes) (across rows : Nat) (bytes : Bytes)
    (after : Device) (ran : d.dispatch p buffers across rows = .ok (bytes, after)) : d.Launched after 1 := by
  unfold Device.dispatch at ran
  split at ran
  · cases ran
  · split at ran
    · cases ran
    · split at ran
      · cases ran
      · obtain ⟨args, _, rest⟩ := bind_eq_ok ran
        obtain ⟨threads, _, rest⟩ := bind_eq_ok rest
        obtain ⟨words, _, last⟩ := bind_eq_ok rest
        cases last
        exact ⟨_, rfl⟩

-- A failure may come before the launch or after it; a result comes after it.
theorem perform_device (l : Launch) (p : DeviceProgram) (d : Device) :
    ∃ launches, d.Launched (l.perform p d).1 launches ∧ ∀ bytes, (l.perform p d).2 = .ok bytes → launches = 1 := by
  have uploaded := uploadAll_device l.uploads d
  unfold perform
  generalize uploadAll l.uploads d = sent at uploaded
  obtain ⟨ready, result⟩ := sent
  obtain ⟨size, rfl⟩ := uploaded
  cases result with
  | error e => exact ⟨0, ⟨size, rfl⟩, nofun⟩
  | ok _ =>
    dsimp only
    split
    · exact ⟨0, ⟨size, rfl⟩, nofun⟩
    · split
      · exact ⟨0, ⟨size, rfl⟩, nofun⟩
      · rename_i bytes after ran
        obtain ⟨total, rfl⟩ := dispatch_device p _ _ _ _ bytes after ran
        exact ⟨1, ⟨total, rfl⟩, fun _ _ => rfl⟩

end Launch

theorem Device.run_device (d : Device) (codec : Codec) (p : DeviceProgram) (inputs : List Encoded)
    (scalars : List Single) (shape : List Nat) :
    ∃ launches, d.Launched (d.run codec p inputs scalars shape).1 launches ∧
      ∀ b, (d.run codec p inputs scalars shape).2 = .ok b → launches = 1 := by
  unfold Device.run
  cases Launch.make codec.order p.manifest inputs scalars with
  | error e => exact ⟨0, ⟨_, rfl⟩, nofun⟩
  | ok l =>
    obtain ⟨launches, launched, result⟩ := l.perform_device p d
    dsimp only
    generalize l.perform p d = outcome at launched result
    obtain ⟨after, ran⟩ := outcome
    cases ran with
    | error e => exact ⟨launches, launched, nofun⟩
    | ok bytes => exact ⟨launches, launched, fun _ _ => result bytes rfl⟩

namespace Session

theorem execute_device (s : Session) (device : Device) (k : Kernel) (p : DeviceProgram) (args : List Arg) :
    ∃ launches, device.Launched (s.execute device k p args).1 launches ∧
      ∀ out, (s.execute device k p args).2 = .ok out → launches = 1 := by
  unfold execute
  split
  · exact ⟨0, ⟨_, rfl⟩, nofun⟩
  · rename_i inputs _
    obtain ⟨launches, launched, result⟩ := device.run_device s.codec p inputs
      (Kernel.scalarWords args p.manifest.scalarParams) k.grid.outputShape
    generalize device.run s.codec p inputs _ k.grid.outputShape = ran at launched result
    obtain ⟨after, outcome⟩ := ran
    cases outcome with
    | error e => exact ⟨launches, launched, nofun⟩
    | ok encoded => exact ⟨launches, launched, fun _ _ => result encoded rfl⟩

theorem build_device (s : Session) (device : Device) (k : Kernel) (functions : Snapshot) :
    (∃ e, s.build device k functions = (device, .error e)) ∨
      ∃ program, s.build device k functions = ({ device with built := device.built + 1 }, .ok program) := by
  unfold build
  split
  · exact .inl ⟨_, rfl⟩
  · split
    · exact .inl ⟨_, rfl⟩
    · rename_i loaded
      unfold Device.compile at loaded
      split at loaded
      · cases loaded
      · split at loaded
        · cases loaded
        · split at loaded
          · cases loaded
          · cases loaded
            exact .inr ⟨_, rfl⟩

theorem program_absent {s : Session} (absent : s.device = none) (k : Kernel) :
    s.program k = (s, .error (.compilationFailed .noContext)) := by
  simp only [program, absent]

theorem runDevice_absent {s : Session} (absent : s.device = none) (k : Kernel) (args : List Arg) :
    s.runDevice k args = (s, .error (.executionFailed .noContext)) := by
  simp only [runDevice, absent]

theorem program_present {s : Session} {device : Device} (present : s.device = some device) (k : Kernel) :
    ∃ cache built, (s.program k).1 = { s with cache := cache, device := some { device with built := built } } ∧
      cache.stats.requests = s.cache.stats.requests + 1 := by
  have asked := s.cache.lookup_requests (k.signatureOf (k.functions s.registry))
  unfold program
  rw [present]
  dsimp only
  generalize s.cache.lookup (k.signatureOf (k.functions s.registry)) = found at asked
  obtain ⟨cache, what⟩ := found
  have same : s = { s with device := some device } := by rw [← present]
  cases what with
  | hit program => exact ⟨cache, device.built, by rw [same], asked⟩
  | joined flight => exact ⟨cache, device.built, by rw [same], asked⟩
  | leads flight =>
    have settled (outcome : Outcome Signature Compiled) :
        (cache.finish (k.signatureOf (k.functions s.registry)) flight outcome).stats.requests =
          s.cache.stats.requests + 1 :=
      (cache.settle_requests _ outcome).trans asked
    dsimp only
    rcases s.build_device device k (k.functions s.registry) with ⟨e, failed⟩ | ⟨program, made⟩
    · rw [failed]
      exact ⟨_, device.built, rfl, settled _⟩
    · rw [made]
      exact ⟨_, device.built + 1, rfl, settled _⟩

theorem runDevice_present {s : Session} {device : Device} (present : s.device = some device) (k : Kernel)
    (args : List Arg) :
    ∃ cache built launches uploaded, (s.runDevice k args).1 = { s with
        cache := cache
        device := some { device with built := built, dispatches := device.dispatches + launches, uploaded := uploaded } } ∧
      cache.stats.requests = s.cache.stats.requests + 1 ∧
      ∀ out, (s.runDevice k args).2 = .ok out → launches = 1 := by
  obtain ⟨cache, built, after, requests⟩ := program_present present k
  unfold runDevice
  rw [present]
  dsimp only
  generalize s.program k = asked at after
  obtain ⟨next, outcome⟩ := asked
  cases after
  cases outcome with
  | error e => exact ⟨cache, built, 0, device.uploaded, rfl, requests, nofun⟩
  | ok found =>
    obtain ⟨launches, ⟨uploaded, launched⟩, result⟩ := execute_device
      { s with cache := cache, device := some { device with built := built } } { device with built := built } k
      found.artifact.program args
    refine ⟨cache, built, launches, uploaded, ?_, requests, result⟩
    dsimp only
    rw [launched]

end Session
end GridKernel
