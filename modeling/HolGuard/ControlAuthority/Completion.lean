import HolGuard.ControlAuthority.Recovery
/-!
# A recovery that nothing interrupts completes

With every write done, no read and no recovery ends as an interrupted one does.
-/
namespace Guard
namespace ControlAuthority

open Lib (Faulty)
open Lib.Faulty (Quiet quiet_get quiet_pure quiet_write quiet_refuse quiet_lift quiet_fail)

variable {k : Keys}

/-! ## Checks -/

/-- The check can fail, but not as an interruption does. -/
def Speaks {α : Type} (x : Except String α) : Prop := x ≠ .error interrupted

theorem speaks_ok {α : Type} (a : α) : Speaks (.ok a) := by simp [Speaks]

theorem Speaks.bind {α β : Type} {x : Except String α} {f : α → Except String β} (hx : Speaks x)
    (hf : ∀ a, Speaks (f a)) : Speaks (x >>= f) := by
  cases x with
  | error e => exact fun h => hx (by cases h; rfl)
  | ok a => exact hf a

theorem speaks_ite {α : Type} {c : Prop} [Decidable c] {e : String} {x : Except String α} (he : e ≠ interrupted)
    (hx : Speaks x) : Speaks (if c then .error e else x) := by
  split
  · simpa [Speaks] using he
  · exact hx

theorem speaks_verify {α : Type} (a : Authenticator α) (s : Sealed α) : Speaks (a.verify s) :=
  speaks_ite (by decide) (speaks_ok _)

theorem speaks_validateSerializedLayers (layers : List ExtensionControlLayer) :
    Speaks (validateSerializedLayers layers) :=
  speaks_ite (by decide) (speaks_ok _)

theorem speaks_validateLayers (layers : List ExtensionControlLayer) (catalogDigest : String) :
    Speaks (validateLayers layers catalogDigest) :=
  speaks_ite (by decide) (speaks_ite (by decide) (speaks_ite (by decide) (speaks_ite (by decide)
    (speaks_ite (by decide) (speaks_ok _)))))

theorem speaks_previousDigestOf (s : SnapshotRow) (row : TransitionRow) : Speaks (previousDigestOf s row) := by
  unfold previousDigestOf
  split
  · exact speaks_ok _
  · split
    · split
      · simp [Speaks, interrupted]
      · exact speaks_ok _
    · simp [Speaks, interrupted]

theorem speaks_checkPending (row : TransitionRow) (d : String) : Speaks (checkPending k row d) :=
  (speaks_verify _ _).bind fun _ => speaks_ite (by decide) ((speaks_verify _ _).bind fun _ =>
    speaks_ite (by decide) (speaks_ok _))

theorem speaks_loadCatalogManifest (db : Database) (catalogDigest : String) :
    Speaks (loadCatalogManifest k db catalogDigest) := by
  unfold loadCatalogManifest
  split
  · exact speaks_ok _
  · exact (speaks_verify _ _).bind fun _ => speaks_ite (by decide) (speaks_ok _)

/-! ## Operations -/

theorem quiet_read (catalogDigest : String) : Quiet interrupted (readExtensionControlAuthority k catalogDigest) := by
  refine quiet_get.bind fun w => ?_
  split
  · exact quiet_pure _
  · split
    · exact quiet_pure _
    · unfold readSnapshot
      split
      · exact quiet_pure _
      · refine Quiet.bind ?_ fun _ => quiet_pure _
        unfold ensureCatalogMigratedEvent
        split
        · exact quiet_write _ _
        · exact quiet_pure _
      · exact quiet_pure _
  · exact quiet_pure _

theorem quiet_finish (row : TransitionRow) : Quiet interrupted (finishTransition k row) :=
  (quiet_write _ _).bind fun _ => (quiet_write _ _).bind fun _ => (quiet_read _).bind fun _ =>
    (quiet_refuse (by decide)).bind fun _ => quiet_pure _

theorem quiet_complete (s : SnapshotRow) (row : TransitionRow) (at_ : String) :
    Quiet interrupted (completeTransition k s row at_) := by
  unfold completeTransition
  split
  · exact (quiet_write _ _).bind fun _ => quiet_finish row
  · split
    · exact (quiet_write _ _).bind fun _ => quiet_finish row
    · exact quiet_finish row

theorem quiet_resumeFrom (row : TransitionRow) (current : ExtensionControlAuthorityView) (at_ : String)
    (s : SnapshotRow)
    (anchor : Option AuthorityAnchor) : Quiet interrupted (resumeFrom k row current at_ s anchor) := by
  refine (quiet_lift (speaks_previousDigestOf s row)).bind fun d => ?_
  refine (quiet_lift (speaks_checkPending row d)).bind fun _ => ?_
  split
  · exact quiet_fail (by decide)
  · split
    · exact (quiet_write _ _).bind fun _ => quiet_pure _
    · split
      · exact quiet_complete _ _ _
      · split
        · exact (quiet_write _ _).bind fun _ => quiet_pure _
        · exact quiet_fail (by decide)

theorem quiet_resume (row : TransitionRow) (current : ExtensionControlAuthorityView) (q : ResumeRequest)
    (at_ : String) : Quiet interrupted (resumeIdempotentTransition k row current q at_) := by
  refine (quiet_write _ _).bind fun _ => ?_
  refine (quiet_lift (speaks_validateSerializedLayers _)).bind fun _ => ?_
  refine (quiet_refuse (by decide)).bind fun _ => quiet_get.bind fun w => ?_
  split
  · exact quiet_fail (by decide)
  · exact quiet_resumeFrom _ _ _ _ _

theorem quiet_reset (catalogDigest reason stamp : String) :
    Quiet interrupted (resetExtensionControlAuthority k catalogDigest reason stamp) :=
  (quiet_write _ _).bind fun _ => (quiet_write _ _).bind fun _ => (quiet_write _ _).bind fun _ =>
    quiet_get.bind fun _ => (quiet_refuse (by decide)).bind fun _ => (quiet_write _ _).bind fun _ =>
      (quiet_write _ _).bind fun _ => quiet_pure _

theorem quiet_migrate (previous : ExtensionControlAuthorityView) (registry : Registry) (stamp : String) :
    Quiet interrupted (migrateExtensionControlCatalog k previous registry stamp) := by
  refine (quiet_write _ _).bind fun _ => quiet_get.bind fun w => ?_
  refine (quiet_lift (speaks_loadCatalogManifest _ _)).bind fun _ => ?_
  refine (quiet_lift (speaks_validateLayers _ _)).bind fun _ => ?_
  refine (quiet_lift (speaks_validateSerializedLayers _)).bind fun _ => ?_
  split
  · exact quiet_fail (by decide)
  · exact (quiet_refuse (by decide)).bind fun _ => (quiet_refuse (by decide)).bind fun _ =>
      (quiet_write _ _).bind fun _ => (quiet_write _ _).bind fun _ =>
        (quiet_refuse (by decide)).bind fun _ => (quiet_write _ _).bind fun _ =>
          (quiet_write _ _).bind fun _ => quiet_read _

theorem quiet_readOtherCatalog (db : Database) (row : SnapshotRow) (registry : Registry) (stamp : String) :
    Quiet interrupted (readOtherCatalog k db row registry stamp) := by
  refine Quiet.bind ?_ fun resumed => ?_
  · unfold resumeMigration
    split
    · exact quiet_pure _
    · split
      · exact quiet_resume _ _ _ _
      · exact quiet_pure _
  · split
    · exact quiet_pure _
    · exact (quiet_read _).bind fun _ => (quiet_refuse (by decide)).bind fun _ => quiet_migrate _ _ _

theorem quiet_readWithRegistry (catalogDigest : String) (registry : Option Registry) (stamp : String) :
    Quiet interrupted (readWithRegistry k catalogDigest registry stamp) := by
  refine quiet_get.bind fun w => ?_
  split
  · split
    · exact (quiet_readOtherCatalog _ _ _ _).rescue fun _ => quiet_pure _
    · exact quiet_read _
  · exact quiet_read _

theorem quiet_recoverAnchored (catalogDigest : String) (registry : Option Registry) (stamp : String) (s : SnapshotRow) :
    Quiet interrupted (recoverAnchored k catalogDigest registry stamp s) := by
  have hread : Quiet interrupted (do
      let recovered ← readWithRegistry k catalogDigest registry stamp
      if recovered.health = .isProtected then pure recovered
      else resetExtensionControlAuthority k catalogDigest "authenticated-recovery-unverifiable" stamp) := by
    refine (quiet_readWithRegistry _ _ _).bind fun _ => ?_
    split
    · exact quiet_pure _
    · exact quiet_reset _ _ _
  refine quiet_get.bind fun w => ?_
  split
  · exact quiet_reset _ _ _
  · by_cases hpos : 0 < s.revision
    · simp only [hpos, if_true]
      exact (quiet_write _ _).bind fun _ => hread
    · simp only [hpos, if_false]
      exact hread

theorem quiet_recover (catalogDigest : String) (registry : Option Registry) (stamp : String) :
    Quiet interrupted (recoverExtensionControlAuthority k catalogDigest registry stamp) := by
  refine (quiet_write _ _).bind fun _ => quiet_get.bind fun w => ?_
  split
  · refine Quiet.bind ?_ fun resumed => ?_
    · unfold resumeRecoverable
      split
      · exact quiet_pure _
      · exact quiet_resume _ _ _ _
    · split
      · exact quiet_pure _
      · unfold recoverUnresumed
        split
        · split
          · exact (quiet_write _ _).bind fun _ => quiet_recoverAnchored _ _ _ _
          · exact quiet_recoverAnchored _ _ _ _
        · exact quiet_reset _ _ _
  · exact quiet_reset _ _ _

end ControlAuthority
end Guard
