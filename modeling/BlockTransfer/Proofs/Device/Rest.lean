import BlockTransfer.Device.Posix.Traffic
/-!
# Devices at rest

A device is at rest when it has no asynchronous work: as it was made, and as a
wait leaves it.

Key definitions: `PosixDevice.AtRest`.
Key theorem: `PosixDevice.atRest_create`.
-/

namespace BlockTransfer
namespace PosixDevice

/-- The engine is as the settings ask for, and nothing is under way or waits to
be answered. -/
structure AtRest (d : PosixDevice) : Prop where
  valid : d.settings.Valid
  queueDepth : d.engine.queueDepth = d.settings.queueDepth
  singleSubmit : d.engine.singleSubmit = d.settings.singleSubmit
  overlapEvents : d.engine.overlapEvents = d.settings.overlapEvents
  inboxes : d.engine.inboxes = List.replicate d.settings.threadCount []
  flights : d.engine.flights = []
  completion : d.engine.completion = {}

variable {d : PosixDevice}

/-- A device that was just made. -/
theorem atRest_create {host : Host} {settings : DeviceSettings} {pool : Nat}
    (h : create host settings pool = .ok d) : d.AtRest ∧ d.settings = settings := by
  obtain ⟨hvalid, rfl⟩ := eq_of_create h
  exact
    ⟨{ valid := hvalid
       queueDepth := rfl
       singleSubmit := rfl
       overlapEvents := rfl
       inboxes := rfl
       flights := rfl
       completion := rfl }, rfl⟩

/-- There is a worker for every thread asked for. -/
theorem AtRest.workerCount (h : d.AtRest) : d.engine.workerCount = d.settings.threadCount := by
  rw [Engine.workerCount, h.inboxes, List.length_replicate]

theorem AtRest.blockSize_pos (h : d.AtRest) : 0 < d.settings.blockSize := by
  obtain ⟨k, hk⟩ := h.valid.blockSize
  rw [hk, Nat.one_shiftLeft]
  exact Nat.two_pow_pos k

theorem AtRest.flatten_inboxes (h : d.AtRest) : d.engine.inboxes.flatten = [] := by
  rw [h.inboxes, List.flatten_replicate_nil]

end PosixDevice
end BlockTransfer
