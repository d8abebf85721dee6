/-
`core/errors.ts`: the one error type every store and coordinator throws.
Codes are an enumeration of the strings the modelled files use; texts
are carried as they stand in the source. The `details` record is left
out: no modelled function reads it.
-/

namespace OperatorRuntime

/-- The error codes raised by the modelled files. -/
inductive ErrorCode
  -- relay-delivery-store.ts
  | relayQueueCorrupt
  | relayQueueLimit
  | relayStreamLimit
  | relayIdempotencyRouteChanged
  | relayIdempotencyContractUnverifiable
  | relayIdempotencyContractChanged
  | relayIdempotencyCapabilityChanged
  | relayIdempotencyInputChanged
  | relayIdempotencyAuthorityChanged
  | relayIdempotencyInvalid
  | relayCapabilityRequirementsInvalid
  | relayPayloadInvalid
  | relayPayloadTooLarge
  | relayKindInvalid
  | relayLimitInvalid
  | relaySequenceInvalid
  | relayIdInvalid
  | relayAckUnknownStream
  | relayAckCompacted
  | relayAckMismatch
  | relayAckGap
  | relayResumeAhead
  | relayResumeBehind
  -- resource-leases.ts
  | resourceLeaseInputInvalid
  | resourceLeaseCorrupt
  | resourceLeaseLimit
  | resourceBusy
  | resourceQuarantined
  | resourceQuarantineLimit
  -- action-transition-journal.ts, intent-registry.ts, verification-kernel.ts
  | intentBindingInvalid
  | verificationInputInvalid
  -- team-coordinator.ts, intent-registry.ts, side-effect.ts
  | teamInputInvalid
  | teamStateCorrupt
  | teamVerifierRequired
  | teamVerifierCoverageInvalid
  | teamTerminal
  | teamStateInvalid
  | teamReconciliationRequired
  | teamWorkerRevoked
  | teamWorkerLimit
  | teamWorkerNotFound
  | teamWorkerOffline
  | teamWorkNotFound
  | teamLeaseLost
  | teamLeaseExpired
  | teamResourceNotFound
  | teamBlackboardLeaseRequired
  | teamBlackboardConflict
  | teamBlackboardLimit
  | teamCapabilityDenied
  | teamRiskDenied
  | teamResourceDenied
  | teamResourceRequired
  | teamArtifactConflict
  | teamIntentMismatch
  | teamActionReceiptConflict
  | teamActionReceiptLimit
  | teamActionReceiptNotFound
  | teamActionReconciliationRequired
  | teamKernelVerificationRequired
  | teamCanonicalVerificationUnavailable
  | teamVerificationStateChanged
  | teamVerificationRequired
  | teamWorldObservationDenied
  | teamReconciliationDenied
  | teamReconciliationInvalid
  | teamCanonicalReconciliationRequired
  | teamAttemptBudgetExhausted
  -- control-plane-store.ts
  | controlPlaneStoreInvalid
  | controlPlaneStoreCorrupt
  | controlPlaneCasMismatch
  | controlPlaneRestoreConflict
  -- enterprise-policy.ts, policy.ts
  | enterpriseAuthorityDenied
  | enterprisePolicyCorrupt
  | capabilityDenied
  | pathOutsideScope
  | riskCeilingExceeded
  | approvalRequired
  -- session-token.ts
  | deviceNotFound
  | deviceRevoked
  -- approval-store.ts
  | approvalActionMismatch
  | approvalAuthorityInvalid
  | approvalExecutionLeaseMismatch
  | approvalExpired
  | approvalInUse
  | approvalNotActive
  | approvalNotFound
  | approvalNotPending
  | approvalNotValid
  | approvalRequestMismatch
  | approvalStoreCorrupt
  | approvalStoreLimit
  -- principal-delegation.ts, task-plan.ts
  | delegationGraphInvalid
  | taskPlanInvalid
  -- desired-state.ts
  | desiredStateConflict
  | desiredStateLimit
  | desiredStateInputInvalid
  | desiredStateNotFound
  | desiredStateCorrupt
  | desiredStateOperationIdentityConflict
  | desiredStateCancellationUnresolved
  | desiredStateNotPaused
  | desiredStateReconciliationRequired
  -- organization-coordinator.ts, compensation-journal.ts
  | organizationInputInvalid
  | organizationStateCorrupt
  | organizationScopeDenied
  | organizationProgramIdConflict
  | organizationProgramLimit
  | organizationProgramNotFound
  | organizationStateInvalid
  | organizationChildIdConflict
  | organizationChildResumeUnconfirmed
  | organizationChildStartUnconfirmed
  | organizationChildPauseUnconfirmed
  | organizationChildCancelUnconfirmed
  | organizationMissionIdConflict
  | organizationPromotionDenied
  | organizationVerificationDrift
  | organizationVerificationDigestMismatch
  | organizationVerificationMissing
  | organizationWaveInvalid
  | organizationParallelLimit
  | organizationRecoveryRequired
  | compensationIntentConflict
  | compensationIntentNotFound
  | compensationJournalLimit
  -- enterprise-authority-lease.ts
  | enterpriseAuthorityLeaseCorrupt
  | enterpriseAuthorityLeaseInactive
  | enterpriseAuthorityLeaseInvalid
  | enterpriseAuthorityLeaseMismatch
  | enterpriseAuthorityLeaseNotFound
  | enterpriseAuthorityStale
  | enterpriseEmergencyHalted
  | enterpriseParentLeaseExpired
  | enterpriseParentLeaseInvalid
  | enterpriseParentLeasePurposeMismatch
  -- developer-runtime-ownership.ts
  | developerRuntimeOwnershipAmbiguous
  | developerRuntimeOwnershipCorrupt
  | developerRuntimeOwnershipInputInvalid
  | developerRuntimeOwnershipLimit
  | developerRuntimePortBusy
  | developerRuntimePortInvalid
  | developerRuntimeProcessIdentityInvalid
  | developerRuntimeProcessIdentityMismatch
  | developerRuntimeProcessIdentityMissing
  | developerRuntimeSessionNotFound
  | developerRuntimeSessionReuse
  | developerRuntimeTerminationUnproven
  | developerRuntimeTransitionInvalid
  -- device-registry.ts
  | deviceIdentityConflict
  | deviceIdentityInvalid
  | deviceRegistryCorrupt
  | deviceRegistryLimit
  | deviceRevocationReasonInvalid
  | pairingChallengeExpired
  | pairingChallengeInvalid
  | pairingChallengeLimit
  | pairingChallengeNotFound
  | pairingChallengeReplay
  | pairingPeerMismatch
  | pairingSignatureInvalid
  | pairingTtlInvalid
  -- digital-operations.ts
  | operationsChildCancelUnconfirmed
  | operationsChildPauseUnconfirmed
  | operationsChildStartUnconfirmed
  | operationsInputInvalid
  | operationsModeInvalid
  | operationsNotFound
  | operationsStateCorrupt
  | operationsStateInvalid
  | operationsVerificationDrift
  | operationsVerifierMissing
  | operationsWorldConditionFailed
  -- Date.prototype.toISOString on an invalid date
  | rangeError
  -- document-data.ts
  | documentPaginationInvalid
  | documentOutputTooLarge
  | typeError
  -- procedure-memory.ts
  | procedureInvalidated
  | procedureMemoryCorrupt
  | procedureMemoryInputInvalid
  | procedureMemoryLimit
  | procedureNotFound
  | procedureOutcomeReceiptsFull
  -- conversation-ledger.ts
  | conversationInputInvalid
  | conversationLedgerCorrupt
  -- outcome-contract.ts
  | outcomeContractInvalid
  | outcomeReceiptInvalid
  | outcomeReceiptLedgerCorrupt
  | outcomeReceiptReplay
  -- document-data.ts, its archives
  | documentArchiveCompressionUnsupported
  | documentArchiveInvalid
  | documentArchiveTooLarge
  -- postgres.ts
  | postgresCsvInvalid
  | postgresRegistryInsideProjectDenied
  | postgresRowLimitExceeded
  -- world-model.ts
  | worldInputInvalid
  | worldModelCorrupt
  | worldQueryInvalid
  -- workspace-code-index.ts
  | workspaceCodeIndexInvalid
  -- perception-graph.ts
  | perceptionInputInvalid
  | perceptionLimit
  | perceptionSecretRejected
  | perceptionStateCorrupt
  -- coordinate-transform.ts
  | coordinateTransformInvalid
  -- throw new Error(message)
  | error
  -- action-execution-store.ts
  | actionExecutionActionMismatch
  | actionExecutionAuthorityMismatch
  | actionExecutionInterruptedBeforeDispatch
  | actionExecutionReceiptMissing
  | actionExecutionReconciliationRequired
  | actionExecutionResultConflict
  | actionExecutionResultTooLarge
  | actionExecutionStateInvalid
  | actionExecutionStoreFull
  | actionJournalNotFound
  | actionRiskMismatch
  | capabilityRiskUnregistered
  -- durable-model-call-budget-ledger.ts
  | taskModelBudgetConfigInvalid
  | taskModelBudgetLedgerCorrupt
  | taskModelBudgetProfileChanged
  | taskModelBudgetReservationInvalid
  | taskModelBudgetDuplicate
  | taskModelBudgetExhausted
  | taskModelBudgetFinalizationInvalid
  | taskModelBudgetUnknownReservation
  | taskModelBudgetSettlementConflict
  -- lsp-workspace-edit.ts
  | lspWorkspaceEditInvalid
  | lspUtf16BoundaryInvalid
deriving DecidableEq, Repr

def ErrorCode.text : ErrorCode → String
  | .relayQueueCorrupt => "RELAY_QUEUE_CORRUPT"
  | .relayQueueLimit => "RELAY_QUEUE_LIMIT"
  | .relayStreamLimit => "RELAY_STREAM_LIMIT"
  | .relayIdempotencyRouteChanged => "RELAY_IDEMPOTENCY_ROUTE_CHANGED"
  | .relayIdempotencyContractUnverifiable => "RELAY_IDEMPOTENCY_CONTRACT_UNVERIFIABLE"
  | .relayIdempotencyContractChanged => "RELAY_IDEMPOTENCY_CONTRACT_CHANGED"
  | .relayIdempotencyCapabilityChanged => "RELAY_IDEMPOTENCY_CAPABILITY_CHANGED"
  | .relayIdempotencyInputChanged => "RELAY_IDEMPOTENCY_INPUT_CHANGED"
  | .relayIdempotencyAuthorityChanged => "RELAY_IDEMPOTENCY_AUTHORITY_CHANGED"
  | .relayIdempotencyInvalid => "RELAY_IDEMPOTENCY_INVALID"
  | .relayCapabilityRequirementsInvalid => "RELAY_CAPABILITY_REQUIREMENTS_INVALID"
  | .relayPayloadInvalid => "RELAY_PAYLOAD_INVALID"
  | .relayPayloadTooLarge => "RELAY_PAYLOAD_TOO_LARGE"
  | .relayKindInvalid => "RELAY_KIND_INVALID"
  | .relayLimitInvalid => "RELAY_LIMIT_INVALID"
  | .relaySequenceInvalid => "RELAY_SEQUENCE_INVALID"
  | .relayIdInvalid => "RELAY_ID_INVALID"
  | .relayAckUnknownStream => "RELAY_ACK_UNKNOWN_STREAM"
  | .relayAckCompacted => "RELAY_ACK_COMPACTED"
  | .relayAckMismatch => "RELAY_ACK_MISMATCH"
  | .relayAckGap => "RELAY_ACK_GAP"
  | .relayResumeAhead => "RELAY_RESUME_AHEAD"
  | .relayResumeBehind => "RELAY_RESUME_BEHIND"
  | .resourceLeaseInputInvalid => "RESOURCE_LEASE_INPUT_INVALID"
  | .resourceLeaseCorrupt => "RESOURCE_LEASE_CORRUPT"
  | .resourceLeaseLimit => "RESOURCE_LEASE_LIMIT"
  | .resourceBusy => "RESOURCE_BUSY"
  | .resourceQuarantined => "RESOURCE_QUARANTINED"
  | .resourceQuarantineLimit => "RESOURCE_QUARANTINE_LIMIT"
  | .intentBindingInvalid => "INTENT_BINDING_INVALID"
  | .verificationInputInvalid => "VERIFICATION_INPUT_INVALID"
  | .teamInputInvalid => "TEAM_INPUT_INVALID"
  | .teamStateCorrupt => "TEAM_STATE_CORRUPT"
  | .teamVerifierRequired => "TEAM_VERIFIER_REQUIRED"
  | .teamVerifierCoverageInvalid => "TEAM_VERIFIER_COVERAGE_INVALID"
  | .teamTerminal => "TEAM_TERMINAL"
  | .teamStateInvalid => "TEAM_STATE_INVALID"
  | .teamReconciliationRequired => "TEAM_RECONCILIATION_REQUIRED"
  | .teamWorkerRevoked => "TEAM_WORKER_REVOKED"
  | .teamWorkerLimit => "TEAM_WORKER_LIMIT"
  | .teamWorkerNotFound => "TEAM_WORKER_NOT_FOUND"
  | .teamWorkerOffline => "TEAM_WORKER_OFFLINE"
  | .teamWorkNotFound => "TEAM_WORK_NOT_FOUND"
  | .teamLeaseLost => "TEAM_LEASE_LOST"
  | .teamLeaseExpired => "TEAM_LEASE_EXPIRED"
  | .teamResourceNotFound => "TEAM_RESOURCE_NOT_FOUND"
  | .teamBlackboardLeaseRequired => "TEAM_BLACKBOARD_LEASE_REQUIRED"
  | .teamBlackboardConflict => "TEAM_BLACKBOARD_CONFLICT"
  | .teamBlackboardLimit => "TEAM_BLACKBOARD_LIMIT"
  | .teamCapabilityDenied => "TEAM_CAPABILITY_DENIED"
  | .teamRiskDenied => "TEAM_RISK_DENIED"
  | .teamResourceDenied => "TEAM_RESOURCE_DENIED"
  | .teamResourceRequired => "TEAM_RESOURCE_REQUIRED"
  | .teamArtifactConflict => "TEAM_ARTIFACT_CONFLICT"
  | .teamIntentMismatch => "TEAM_INTENT_MISMATCH"
  | .teamActionReceiptConflict => "TEAM_ACTION_RECEIPT_CONFLICT"
  | .teamActionReceiptLimit => "TEAM_ACTION_RECEIPT_LIMIT"
  | .teamActionReceiptNotFound => "TEAM_ACTION_RECEIPT_NOT_FOUND"
  | .teamActionReconciliationRequired => "TEAM_ACTION_RECONCILIATION_REQUIRED"
  | .teamKernelVerificationRequired => "TEAM_KERNEL_VERIFICATION_REQUIRED"
  | .teamCanonicalVerificationUnavailable => "TEAM_CANONICAL_VERIFICATION_UNAVAILABLE"
  | .teamVerificationStateChanged => "TEAM_VERIFICATION_STATE_CHANGED"
  | .teamVerificationRequired => "TEAM_VERIFICATION_REQUIRED"
  | .teamWorldObservationDenied => "TEAM_WORLD_OBSERVATION_DENIED"
  | .teamReconciliationDenied => "TEAM_RECONCILIATION_DENIED"
  | .teamReconciliationInvalid => "TEAM_RECONCILIATION_INVALID"
  | .teamCanonicalReconciliationRequired => "TEAM_CANONICAL_RECONCILIATION_REQUIRED"
  | .teamAttemptBudgetExhausted => "TEAM_ATTEMPT_BUDGET_EXHAUSTED"
  | .controlPlaneStoreInvalid => "CONTROL_PLANE_STORE_INVALID"
  | .controlPlaneStoreCorrupt => "CONTROL_PLANE_STORE_CORRUPT"
  | .controlPlaneCasMismatch => "CONTROL_PLANE_CAS_MISMATCH"
  | .controlPlaneRestoreConflict => "CONTROL_PLANE_RESTORE_CONFLICT"
  | .enterpriseAuthorityDenied => "ENTERPRISE_AUTHORITY_DENIED"
  | .enterprisePolicyCorrupt => "ENTERPRISE_POLICY_CORRUPT"
  | .capabilityDenied => "CAPABILITY_DENIED"
  | .pathOutsideScope => "PATH_OUTSIDE_SCOPE"
  | .riskCeilingExceeded => "RISK_CEILING_EXCEEDED"
  | .approvalRequired => "APPROVAL_REQUIRED"
  | .deviceNotFound => "DEVICE_NOT_FOUND"
  | .deviceRevoked => "DEVICE_REVOKED"
  | .approvalActionMismatch => "APPROVAL_ACTION_MISMATCH"
  | .approvalAuthorityInvalid => "APPROVAL_AUTHORITY_INVALID"
  | .approvalExecutionLeaseMismatch => "APPROVAL_EXECUTION_LEASE_MISMATCH"
  | .approvalExpired => "APPROVAL_EXPIRED"
  | .approvalInUse => "APPROVAL_IN_USE"
  | .approvalNotActive => "APPROVAL_NOT_ACTIVE"
  | .approvalNotFound => "APPROVAL_NOT_FOUND"
  | .approvalNotPending => "APPROVAL_NOT_PENDING"
  | .approvalNotValid => "APPROVAL_NOT_VALID"
  | .approvalRequestMismatch => "APPROVAL_REQUEST_MISMATCH"
  | .approvalStoreCorrupt => "APPROVAL_STORE_CORRUPT"
  | .approvalStoreLimit => "APPROVAL_STORE_LIMIT"
  | .delegationGraphInvalid => "DELEGATION_GRAPH_INVALID"
  | .taskPlanInvalid => "TASK_PLAN_INVALID"
  | .desiredStateConflict => "DESIRED_STATE_CONFLICT"
  | .desiredStateLimit => "DESIRED_STATE_LIMIT"
  | .desiredStateInputInvalid => "DESIRED_STATE_INPUT_INVALID"
  | .desiredStateNotFound => "DESIRED_STATE_NOT_FOUND"
  | .desiredStateCorrupt => "DESIRED_STATE_CORRUPT"
  | .desiredStateOperationIdentityConflict => "DESIRED_STATE_OPERATION_IDENTITY_CONFLICT"
  | .desiredStateCancellationUnresolved => "DESIRED_STATE_CANCELLATION_UNRESOLVED"
  | .desiredStateNotPaused => "DESIRED_STATE_NOT_PAUSED"
  | .desiredStateReconciliationRequired => "DESIRED_STATE_RECONCILIATION_REQUIRED"
  | .organizationInputInvalid => "ORGANIZATION_INPUT_INVALID"
  | .organizationStateCorrupt => "ORGANIZATION_STATE_CORRUPT"
  | .organizationScopeDenied => "ORGANIZATION_SCOPE_DENIED"
  | .organizationProgramIdConflict => "ORGANIZATION_PROGRAM_ID_CONFLICT"
  | .organizationProgramLimit => "ORGANIZATION_PROGRAM_LIMIT"
  | .organizationProgramNotFound => "ORGANIZATION_PROGRAM_NOT_FOUND"
  | .organizationStateInvalid => "ORGANIZATION_STATE_INVALID"
  | .organizationChildIdConflict => "ORGANIZATION_CHILD_ID_CONFLICT"
  | .organizationChildResumeUnconfirmed => "ORGANIZATION_CHILD_RESUME_UNCONFIRMED"
  | .organizationChildStartUnconfirmed => "ORGANIZATION_CHILD_START_UNCONFIRMED"
  | .organizationChildPauseUnconfirmed => "ORGANIZATION_CHILD_PAUSE_UNCONFIRMED"
  | .organizationChildCancelUnconfirmed => "ORGANIZATION_CHILD_CANCEL_UNCONFIRMED"
  | .organizationMissionIdConflict => "ORGANIZATION_MISSION_ID_CONFLICT"
  | .organizationPromotionDenied => "ORGANIZATION_PROMOTION_DENIED"
  | .organizationVerificationDrift => "ORGANIZATION_VERIFICATION_DRIFT"
  | .organizationVerificationDigestMismatch => "ORGANIZATION_VERIFICATION_DIGEST_MISMATCH"
  | .organizationVerificationMissing => "ORGANIZATION_VERIFICATION_MISSING"
  | .organizationWaveInvalid => "ORGANIZATION_WAVE_INVALID"
  | .organizationParallelLimit => "ORGANIZATION_PARALLEL_LIMIT"
  | .organizationRecoveryRequired => "ORGANIZATION_RECOVERY_REQUIRED"
  | .compensationIntentConflict => "COMPENSATION_INTENT_CONFLICT"
  | .compensationIntentNotFound => "COMPENSATION_INTENT_NOT_FOUND"
  | .compensationJournalLimit => "COMPENSATION_JOURNAL_LIMIT"
  | .enterpriseAuthorityLeaseCorrupt => "ENTERPRISE_AUTHORITY_LEASE_CORRUPT"
  | .enterpriseAuthorityLeaseInactive => "ENTERPRISE_AUTHORITY_LEASE_INACTIVE"
  | .enterpriseAuthorityLeaseInvalid => "ENTERPRISE_AUTHORITY_LEASE_INVALID"
  | .enterpriseAuthorityLeaseMismatch => "ENTERPRISE_AUTHORITY_LEASE_MISMATCH"
  | .enterpriseAuthorityLeaseNotFound => "ENTERPRISE_AUTHORITY_LEASE_NOT_FOUND"
  | .enterpriseAuthorityStale => "ENTERPRISE_AUTHORITY_STALE"
  | .enterpriseEmergencyHalted => "ENTERPRISE_EMERGENCY_HALTED"
  | .enterpriseParentLeaseExpired => "ENTERPRISE_PARENT_LEASE_EXPIRED"
  | .enterpriseParentLeaseInvalid => "ENTERPRISE_PARENT_LEASE_INVALID"
  | .enterpriseParentLeasePurposeMismatch => "ENTERPRISE_PARENT_LEASE_PURPOSE_MISMATCH"
  | .developerRuntimeOwnershipAmbiguous => "DEVELOPER_RUNTIME_OWNERSHIP_AMBIGUOUS"
  | .developerRuntimeOwnershipCorrupt => "DEVELOPER_RUNTIME_OWNERSHIP_CORRUPT"
  | .developerRuntimeOwnershipInputInvalid => "DEVELOPER_RUNTIME_OWNERSHIP_INPUT_INVALID"
  | .developerRuntimeOwnershipLimit => "DEVELOPER_RUNTIME_OWNERSHIP_LIMIT"
  | .developerRuntimePortBusy => "DEVELOPER_RUNTIME_PORT_BUSY"
  | .developerRuntimePortInvalid => "DEVELOPER_RUNTIME_PORT_INVALID"
  | .developerRuntimeProcessIdentityInvalid => "DEVELOPER_RUNTIME_PROCESS_IDENTITY_INVALID"
  | .developerRuntimeProcessIdentityMismatch => "DEVELOPER_RUNTIME_PROCESS_IDENTITY_MISMATCH"
  | .developerRuntimeProcessIdentityMissing => "DEVELOPER_RUNTIME_PROCESS_IDENTITY_MISSING"
  | .developerRuntimeSessionNotFound => "DEVELOPER_RUNTIME_SESSION_NOT_FOUND"
  | .developerRuntimeSessionReuse => "DEVELOPER_RUNTIME_SESSION_REUSE"
  | .developerRuntimeTerminationUnproven => "DEVELOPER_RUNTIME_TERMINATION_UNPROVEN"
  | .developerRuntimeTransitionInvalid => "DEVELOPER_RUNTIME_TRANSITION_INVALID"
  | .deviceIdentityConflict => "DEVICE_IDENTITY_CONFLICT"
  | .deviceIdentityInvalid => "DEVICE_IDENTITY_INVALID"
  | .deviceRegistryCorrupt => "DEVICE_REGISTRY_CORRUPT"
  | .deviceRegistryLimit => "DEVICE_REGISTRY_LIMIT"
  | .deviceRevocationReasonInvalid => "DEVICE_REVOCATION_REASON_INVALID"
  | .pairingChallengeExpired => "PAIRING_CHALLENGE_EXPIRED"
  | .pairingChallengeInvalid => "PAIRING_CHALLENGE_INVALID"
  | .pairingChallengeLimit => "PAIRING_CHALLENGE_LIMIT"
  | .pairingChallengeNotFound => "PAIRING_CHALLENGE_NOT_FOUND"
  | .pairingChallengeReplay => "PAIRING_CHALLENGE_REPLAY"
  | .pairingPeerMismatch => "PAIRING_PEER_MISMATCH"
  | .pairingSignatureInvalid => "PAIRING_SIGNATURE_INVALID"
  | .pairingTtlInvalid => "PAIRING_TTL_INVALID"
  | .operationsChildCancelUnconfirmed => "OPERATIONS_CHILD_CANCEL_UNCONFIRMED"
  | .operationsChildPauseUnconfirmed => "OPERATIONS_CHILD_PAUSE_UNCONFIRMED"
  | .operationsChildStartUnconfirmed => "OPERATIONS_CHILD_START_UNCONFIRMED"
  | .operationsInputInvalid => "OPERATIONS_INPUT_INVALID"
  | .operationsModeInvalid => "OPERATIONS_MODE_INVALID"
  | .operationsNotFound => "OPERATIONS_NOT_FOUND"
  | .operationsStateCorrupt => "OPERATIONS_STATE_CORRUPT"
  | .operationsStateInvalid => "OPERATIONS_STATE_INVALID"
  | .operationsVerificationDrift => "OPERATIONS_VERIFICATION_DRIFT"
  | .operationsVerifierMissing => "OPERATIONS_VERIFIER_MISSING"
  | .operationsWorldConditionFailed => "OPERATIONS_WORLD_CONDITION_FAILED"
  | .rangeError => "RangeError"
  | .documentPaginationInvalid => "DOCUMENT_PAGINATION_INVALID"
  | .documentOutputTooLarge => "DOCUMENT_OUTPUT_TOO_LARGE"
  | .typeError => "TypeError"
  | .procedureInvalidated => "PROCEDURE_INVALIDATED"
  | .procedureMemoryCorrupt => "PROCEDURE_MEMORY_CORRUPT"
  | .procedureMemoryInputInvalid => "PROCEDURE_MEMORY_INPUT_INVALID"
  | .procedureMemoryLimit => "PROCEDURE_MEMORY_LIMIT"
  | .procedureNotFound => "PROCEDURE_NOT_FOUND"
  | .procedureOutcomeReceiptsFull => "PROCEDURE_OUTCOME_RECEIPTS_FULL"
  | .conversationInputInvalid => "CONVERSATION_INPUT_INVALID"
  | .conversationLedgerCorrupt => "CONVERSATION_LEDGER_CORRUPT"
  | .outcomeContractInvalid => "OUTCOME_CONTRACT_INVALID"
  | .outcomeReceiptInvalid => "OUTCOME_RECEIPT_INVALID"
  | .outcomeReceiptLedgerCorrupt => "OUTCOME_RECEIPT_LEDGER_CORRUPT"
  | .outcomeReceiptReplay => "OUTCOME_RECEIPT_REPLAY"
  | .documentArchiveCompressionUnsupported => "DOCUMENT_ARCHIVE_COMPRESSION_UNSUPPORTED"
  | .documentArchiveInvalid => "DOCUMENT_ARCHIVE_INVALID"
  | .documentArchiveTooLarge => "DOCUMENT_ARCHIVE_TOO_LARGE"
  | .postgresCsvInvalid => "POSTGRES_CSV_INVALID"
  | .postgresRegistryInsideProjectDenied => "POSTGRES_REGISTRY_INSIDE_PROJECT_DENIED"
  | .postgresRowLimitExceeded => "POSTGRES_ROW_LIMIT_EXCEEDED"
  | .worldInputInvalid => "WORLD_INPUT_INVALID"
  | .worldModelCorrupt => "WORLD_MODEL_CORRUPT"
  | .worldQueryInvalid => "WORLD_QUERY_INVALID"
  | .workspaceCodeIndexInvalid => "WORKSPACE_CODE_INDEX_INVALID"
  | .perceptionInputInvalid => "PERCEPTION_INPUT_INVALID"
  | .perceptionLimit => "PERCEPTION_LIMIT"
  | .perceptionSecretRejected => "PERCEPTION_SECRET_REJECTED"
  | .perceptionStateCorrupt => "PERCEPTION_STATE_CORRUPT"
  | .coordinateTransformInvalid => "COORDINATE_TRANSFORM_INVALID"
  | .error => "Error"
  | .actionExecutionActionMismatch => "ACTION_EXECUTION_ACTION_MISMATCH"
  | .actionExecutionAuthorityMismatch => "ACTION_EXECUTION_AUTHORITY_MISMATCH"
  | .actionExecutionInterruptedBeforeDispatch => "ACTION_EXECUTION_INTERRUPTED_BEFORE_DISPATCH"
  | .actionExecutionReceiptMissing => "ACTION_EXECUTION_RECEIPT_MISSING"
  | .actionExecutionReconciliationRequired => "ACTION_EXECUTION_RECONCILIATION_REQUIRED"
  | .actionExecutionResultConflict => "ACTION_EXECUTION_RESULT_CONFLICT"
  | .actionExecutionResultTooLarge => "ACTION_EXECUTION_RESULT_TOO_LARGE"
  | .actionExecutionStateInvalid => "ACTION_EXECUTION_STATE_INVALID"
  | .actionExecutionStoreFull => "ACTION_EXECUTION_STORE_FULL"
  | .actionJournalNotFound => "ACTION_JOURNAL_NOT_FOUND"
  | .actionRiskMismatch => "ACTION_RISK_MISMATCH"
  | .capabilityRiskUnregistered => "CAPABILITY_RISK_UNREGISTERED"
  | .taskModelBudgetConfigInvalid => "TASK_MODEL_BUDGET_CONFIG_INVALID"
  | .taskModelBudgetLedgerCorrupt => "TASK_MODEL_BUDGET_LEDGER_CORRUPT"
  | .taskModelBudgetProfileChanged => "TASK_MODEL_BUDGET_PROFILE_CHANGED"
  | .taskModelBudgetReservationInvalid => "TASK_MODEL_BUDGET_RESERVATION_INVALID"
  | .taskModelBudgetDuplicate => "TASK_MODEL_BUDGET_DUPLICATE"
  | .taskModelBudgetExhausted => "TASK_MODEL_BUDGET_EXHAUSTED"
  | .taskModelBudgetFinalizationInvalid => "TASK_MODEL_BUDGET_FINALIZATION_INVALID"
  | .taskModelBudgetUnknownReservation => "TASK_MODEL_BUDGET_UNKNOWN_RESERVATION"
  | .taskModelBudgetSettlementConflict => "TASK_MODEL_BUDGET_SETTLEMENT_CONFLICT"
  | .lspWorkspaceEditInvalid => "LSP_WORKSPACE_EDIT_INVALID"
  | .lspUtf16BoundaryInvalid => "LSP_UTF16_BOUNDARY_INVALID"

/-- `class OperatorError extends Error`. -/
structure OperatorError where
  code : ErrorCode
  message : String
  retryable : Bool := false
deriving DecidableEq, Repr

/-- What a call of the source answers, or the error that it throws. -/
abbrev Result := Except OperatorError

/-- `throw new OperatorError(code, message)`. -/
def fail {α : Type} (code : ErrorCode) (message : String) : Result α :=
  .error { code, message }

/-- The same with `retryable: true`. -/
def failRetryable {α : Type} (code : ErrorCode) (message : String) : Result α :=
  .error { code, message, retryable := true }

/-- `if (bad) throw new OperatorError(code, message)`. -/
def rejectIf (bad : Prop) [Decidable bad] (code : ErrorCode)
    (message : String) : Result Unit :=
  if bad then fail code message else .ok ()

section
variable {ε α β : Type}

variable {f : α → Except ε β}

theorem bind_eq_ok {x : Except ε α} {b : β} : (x >>= f) = .ok b ↔ ∃ a, x = .ok a ∧ f a = .ok b := by
  cases x with
  | error e => simp [bind, Except.bind]
  | ok a => simp [bind, Except.bind]

variable {a : α}

@[simp] theorem ok_bind : ((Except.ok a : Except ε α) >>= f) = f a := rfl

@[simp] theorem error_bind {e : ε} : ((Except.error e : Except ε α) >>= f) = .error e := rfl

@[simp] theorem fail_ne_ok {code : ErrorCode} {message : String} : fail code message ≠ .ok a := by
  simp [fail]

@[simp] theorem failRetryable_ne_ok {code : ErrorCode} {message : String} :
    failRetryable code message ≠ .ok a := by
  simp [failRetryable]

end

@[simp] theorem rejectIf_eq_ok {bad : Prop} [Decidable bad]
    {code : ErrorCode} {message : String} {u : Unit} :
    rejectIf bad code message = .ok u ↔ ¬ bad := by
  by_cases h : bad
  · simp [rejectIf, h]
  · simp [rejectIf, h]

@[simp] theorem rejectIf_of_not {bad : Prop} [Decidable bad]
    {code : ErrorCode} {message : String} (h : ¬ bad) :
    rejectIf bad code message = .ok () := if_neg h

end OperatorRuntime
