import Quotum.General.Calendar
import Quotum.Cadence
import Quotum.Decimal
import Quotum.Pricing
import Quotum.CatalogPrice
import Quotum.MeterLimitSpend
import Quotum.InvoicePeriods
import Quotum.Allocations
import Quotum.KeptLevels
import Quotum.Metering
import Quotum.Controls
import Quotum.ControlledUsage
import Quotum.AutoTopups
import Quotum.Proofs.Decimal
import Quotum.Proofs.Pricing
import Quotum.Proofs.InvoicePeriods
import Quotum.Proofs.KeptLevels
import Quotum.Proofs.Holds
import Quotum.Proofs.Corrections
import Quotum.Proofs.Confirmations
import Quotum.Proofs.UsageLimits
import Quotum.Proofs.Replacements
import Quotum.Proofs.AutoTopups
import Quotum.Proofs.UsageAlerts
import Quotum.Proofs.StripeRefunds
import Quotum.SubscriptionChanges
import Quotum.Proofs.SubscriptionChanges
import Quotum.MeterLimitWindows
import Quotum.ResetAllocations
import Quotum.Proofs.ResetAllocations
import Quotum.Mutations
import Quotum.Proofs.Mutations
import Quotum.GooglePurchases
import Quotum.Proofs.GooglePurchases
import Quotum.UsageProjections
import Quotum.Proofs.UsageProjections
import Quotum.Promotions
import Quotum.Proofs.Promotions
import Quotum.StripeSubscriptions
import Quotum.Proofs.StripeSubscriptions
import Quotum.Proofs.StripeInvoices
import Quotum.RecurringPricing
import Quotum.Proofs.RecurringPricing
import Quotum.Referrals
import Quotum.Proofs.Referrals
import Quotum.DefaultPlans
import Quotum.Proofs.DefaultPlans
import Quotum.DefaultEntitlements
import Quotum.Proofs.DefaultEntitlements
import Quotum.ProviderOperations
import Quotum.Proofs.ProviderOperations
import Quotum.AccountErasures
import Quotum.Proofs.AccountErasures
import Quotum.RefundRequests
import Quotum.Proofs.RefundRequests
import Quotum.RefundExchange
import Quotum.Proofs.RefundExchange
import Quotum.PaymentSetups
import Quotum.Proofs.PaymentSetups
import Quotum.General.Json
import Quotum.ErasureBatches
import Quotum.Proofs.ErasureBatches
import Quotum.ErasureRuns
import Quotum.Proofs.ErasureRows
import Quotum.Proofs.ErasureRuns
import Quotum.SpendPlans
import Quotum.Proofs.SpendPlans
import Quotum.CadenceRules
import Quotum.Proofs.CalendarWindows
import Quotum.Proofs.CadenceRules
import Quotum.MeterLimitPeriods
import Quotum.Proofs.MeterLimitPeriods
import Quotum.Team
import Quotum.Proofs.Team
import Quotum.McpChanges
import Quotum.Proofs.McpChanges
import Quotum.PromotionCoupons
import Quotum.Proofs.PromotionCoupons
import Quotum.PaddleCheckouts
import Quotum.Proofs.PaddleCheckouts
import Quotum.MeterLimitScopes
import Quotum.Proofs.MeterLimitScopes
import Quotum.Proofs.SpendQuotes
import Quotum.Licenses
import Quotum.Proofs.Licenses
import Quotum.RateLimit
import Quotum.Proofs.RateLimit
import Quotum.General.Base64
import Quotum.General.JsonReading
import Quotum.UsageReceipts
import Quotum.Proofs.UsageReceipts
import Quotum.SafeHttp
import Quotum.Proofs.SafeHttp
import Quotum.Proofs.EntitySpend
import Quotum.OperatorGrants
import Quotum.Proofs.OperatorGrants
import Quotum.Proofs.Rollovers
import Quotum.CommercialPricing
import Quotum.MeterLimitSources
import Quotum.Proofs.CommercialPricing
import Quotum.Proofs.MeterLimitSources
import Quotum.Proofs.RateCards
import Quotum.Proofs.TieredPricing
import Quotum.Proofs.DefaultPlanFailures
import Quotum.Proofs.DefaultPlanSlices
import Quotum.General.CodeUnits
import Quotum.General.Numerals
import Quotum.StableJson
import Quotum.Proofs.StableJson
import Quotum.MeterLimitCombination
import Quotum.Proofs.MeterLimitCombination
import Quotum.Proofs.DecimalCodec
import Quotum.DispatchClaims
import Quotum.Proofs.DispatchClaims
import Quotum.SecondFactor
import Quotum.Proofs.SecondFactor
import Quotum.Proofs.ProviderConnections
import Quotum.Proofs.SubscriptionItems
import Quotum.Proofs.WebhookSecrets
