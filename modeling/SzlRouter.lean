import SzlRouter.JsonStable
import SzlRouter.BudgetedCalls
import SzlRouter.Attribution
import SzlRouter.EmbedIdentity
import SzlRouter.RouteTrail
import SzlRouter.KeyedHistory
import SzlRouter.SpendRecovery
import SzlRouter.RetryContract
import SzlRouter.PoolOwnership
import SzlRouter.EmbedShape
import SzlRouter.RuntimeClassifiers
import SzlRouter.MeshPlacement
import SzlRouter.MeshBoundary
import SzlRouter.SpaceEvidence
import SzlRouter.SpaceAgreement
import SzlRouter.BlockedCalls
import SzlRouter.GatewayReadiness
import SzlRouter.BodyFraming
import SzlRouter.ManifestPath
import SzlRouter.LocalStoreAdmission
import SzlRouter.PlanOrder
import SzlRouter.InventoryProbing
import SzlRouter.EmbedBound
import SzlRouter.EmbedMarking
import SzlRouter.EmbedBudget
import SzlRouter.EmbedIsolation
import SzlRouter.ChatEndpoint
import SzlRouter.Base64Text
import SzlRouter.SigningKey
import SzlRouter.ReceiptCheck
import SzlRouter.OrganPaint
import SzlRouter.ReleaseTags
import SzlRouter.SpendInspection
import SzlRouter.GridContext
import SzlRouter.GridRefresh
import SzlRouter.GatewayFailover
import SzlRouter.ReceiptBinding
import SzlRouter.GatewayReceipts
import SzlRouter.GatewayAttempt
import SzlRouter.GatewayEgress
import SzlRouter.GatewayWitness
import SzlRouter.JsonBytes
import SzlRouter.EventLog
import SzlRouter.ControlSpace
import SzlRouter.ControlSpaceAdmission
import SzlRouter.ControlSpacePublish
import SzlRouter.ControlSpaceRuns
