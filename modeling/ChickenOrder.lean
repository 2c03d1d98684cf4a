import ChickenOrder.Interaction.Program
import ChickenOrder.Interaction.Pool
import ChickenOrder.Values.Text
import ChickenOrder.Domain.OrderStatus
import ChickenOrder.Domain.OrderJob
import ChickenOrder.Relational.Table
import ChickenOrder.Database.Schema
import ChickenOrder.Database.Transactions
import ChickenOrder.Database.OrderRepository
import ChickenOrder.Database.Changes
import ChickenOrder.Database.AuditTrail
import ChickenOrder.Services.World
import ChickenOrder.Services.Infrastructure
import ChickenOrder.Services.ProcessOrder
import ChickenOrder.Services.CreateOrder
import ChickenOrder.Services.OrderSystem
import ChickenOrder.Services.Calls
import ChickenOrder.Guarantees.StatusOwnership
import ChickenOrder.Services.Executions
import ChickenOrder.Guarantees.AtMostOnce
import ChickenOrder.Guarantees.Acknowledgement
import ChickenOrder.Guarantees.Exhaustion
import ChickenOrder.Guarantees.DeadLetter
import ChickenOrder.Guarantees.Redrive
import ChickenOrder.Guarantees.AllOrNothing
import ChickenOrder.Services.Creations
import ChickenOrder.Guarantees.ApiIdempotency
import ChickenOrder.Guarantees.Deduplication
import ChickenOrder.Guarantees.StatusUpdates
import ChickenOrder.Guarantees.PosConfirmation
import ChickenOrder.Services.Locking
import ChickenOrder.Guarantees.LockOwnership
import ChickenOrder.Guarantees.FailureLocking
import ChickenOrder.Interaction.Rely
import ChickenOrder.Database.OrderRecord
import ChickenOrder.Guarantees.CrashConsistency
import ChickenOrder.Services.OrderReads
import ChickenOrder.Services.StatusPatches
import ChickenOrder.Guarantees.AppStatus
import ChickenOrder.Guarantees.MissedOrders
import ChickenOrder.Values.Numerals
import ChickenOrder.Services.LegacyXml
import ChickenOrder.Services.OrderApi
import ChickenOrder.Database.Columns
import ChickenOrder.Services.ItemValidation
import ChickenOrder.Guarantees.Money
import ChickenOrder.Services.MenuAdmin
import ChickenOrder.Services.MenuReads
import ChickenOrder.Guarantees.MenuCoherence
import ChickenOrder.Guarantees.KeyInterference
import ChickenOrder.Guarantees.KeyHeaders
import ChickenOrder.Guarantees.Atomicity
import ChickenOrder.Guarantees.Publishing
import ChickenOrder.Guarantees.MenuUploads
import ChickenOrder.Guarantees.PosFailures
import ChickenOrder.Interaction.CircuitBreaker
import ChickenOrder.Services.PosCircuitBreaker
import ChickenOrder.Guarantees.OpenCircuits
import ChickenOrder.Guarantees.StoreIsolation
import ChickenOrder.Guarantees.WarmCache
import ChickenOrder.Parsing.Reader
import ChickenOrder.Guarantees.XmlDecoding
import ChickenOrder.Guarantees.Storability
import ChickenOrder.Services.PhoneOtp
import ChickenOrder.Guarantees.OtpLifecycle
import ChickenOrder.Guarantees.OtpGuessing
import ChickenOrder.Guarantees.AddressResolution
import ChickenOrder.Guarantees.DeliveryFees
import ChickenOrder.Services.SalesReport
import ChickenOrder.Guarantees.SalesTotals
import ChickenOrder.Guarantees.BusinessDates
import ChickenOrder.Guarantees.BridgePricing
import ChickenOrder.Guarantees.UuidCase
import ChickenOrder.Guarantees.RepeatedUploads
import ChickenOrder.Guarantees.Provenance
import ChickenOrder.Guarantees.Completion
import ChickenOrder.Guarantees.OrderLists
import ChickenOrder.Guarantees.AreaBook
import ChickenOrder.Guarantees.Announcements
import ChickenOrder.Guarantees.Customers
import ChickenOrder.Guarantees.DeadLetterAlerts
import ChickenOrder.Guarantees.MenuBoard
import ChickenOrder.Guarantees.StoredOrders
