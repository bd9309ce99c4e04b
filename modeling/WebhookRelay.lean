import WebhookRelay.Foundation.Machine
import WebhookRelay.Foundation.Query
import WebhookRelay.Foundation.Paging
import WebhookRelay.Foundation.Rows
import WebhookRelay.Foundation.Cell
import WebhookRelay.Foundation.SortedSet
import WebhookRelay.Foundation.RowLocks
import WebhookRelay.Foundation.ConsumerLog
import WebhookRelay.Foundation.Fallible
import WebhookRelay.Foundation.Networks
import WebhookRelay.Foundation.Transaction
import WebhookRelay.Foundation.Linearization
import WebhookRelay.Foundation.PrefixFree
import WebhookRelay.Foundation.Clients
import WebhookRelay.Foundation.Reading
import WebhookRelay.Foundation.Simulation
import WebhookRelay.Foundation.Observation
import WebhookRelay.Foundation.Backlog
import WebhookRelay.Core.Uuid
import WebhookRelay.Core.Json
import WebhookRelay.Core.Models
import WebhookRelay.Core.UrlSecurity
import WebhookRelay.Core.IpAddresses
import WebhookRelay.Core.Database
import WebhookRelay.Gateway.Handler
import WebhookRelay.Gateway.System
import WebhookRelay.Gateway.Idempotency
import WebhookRelay.Gateway.Duplicates
import WebhookRelay.Gateway.Authenticity
import WebhookRelay.Gateway.Lockout
import WebhookRelay.Gateway.Answers
import WebhookRelay.Gateway.Body
import WebhookRelay.Outbox.Relay
import WebhookRelay.Outbox.Protocol
import WebhookRelay.Outbox.Outage
import WebhookRelay.Outbox.Drain
import WebhookRelay.Limits.SlidingWindow
import WebhookRelay.Limits.Concurrency
import WebhookRelay.Transform.Engine
import WebhookRelay.Transform.Filter
import WebhookRelay.Transform.Worker
import WebhookRelay.Transform.Consumer
import WebhookRelay.Transform.Validated
import WebhookRelay.Transform.Templates
import WebhookRelay.Transform.FilterMeaning
import WebhookRelay.Transform.Isolation
import WebhookRelay.Delivery.Worker
import WebhookRelay.Delivery.DeadLetters
import WebhookRelay.Delivery.Waiting
import WebhookRelay.Delivery.Audit
import WebhookRelay.Delivery.CircuitBreaker
import WebhookRelay.Delivery.BreakerLiveness
import WebhookRelay.Delivery.Probes
import WebhookRelay.Delivery.Cooldown
import WebhookRelay.Delivery.Reopening
import WebhookRelay.Delivery.Tripping
import WebhookRelay.Delivery.Consumer
import WebhookRelay.Delivery.Dispatch
import WebhookRelay.Delivery.RouteSettings
import WebhookRelay.Delivery.Process
import WebhookRelay.Delivery.Rebinding
import WebhookRelay.Delivery.Handling
import WebhookRelay.Api.Schemas
import WebhookRelay.Api.Store
import WebhookRelay.Api.Rbac
import WebhookRelay.Api.Endpoints
import WebhookRelay.Api.Events
import WebhookRelay.Api.Tenancy
import WebhookRelay.Api.Isolation
import WebhookRelay.Api.Writes
import WebhookRelay.Api.Publications
import WebhookRelay.Api.Auth
import WebhookRelay.Api.Workspaces
import WebhookRelay.Api.Ownership
import WebhookRelay.Api.AuthThrottle
import WebhookRelay.Api.Slugs
import WebhookRelay.Api.Identities
import WebhookRelay.Api.ForeignKeys
import WebhookRelay.Api.RouteFields
import WebhookRelay.Api.RouteChanges
import WebhookRelay.Api.Dlq
import WebhookRelay.Api.Secrecy
import WebhookRelay.Api.Views
import WebhookRelay.Api.Authority
import WebhookRelay.Api.Sessions
import WebhookRelay.Api.Guessing
import WebhookRelay.Retry.Scheduler
import WebhookRelay.Retry.Protocol
import WebhookRelay.Pipeline.System
import WebhookRelay.Pipeline.NoWrongDelivery
import WebhookRelay.Pipeline.RetryLoop
import WebhookRelay.Pipeline.Ingestion
import WebhookRelay.Pipeline.Credentials
import WebhookRelay.Pipeline.Deletion
import WebhookRelay.Pipeline.History
import WebhookRelay.Pipeline.ReadBack
import WebhookRelay.Pipeline.Discards
import WebhookRelay.Pipeline.SharedRedis
import WebhookRelay.Pipeline.RedisViews
import WebhookRelay.Wire.JsonText
import WebhookRelay.Wire.RoundTrip
import WebhookRelay.Wire.Accepted
import WebhookRelay.Wire.Kafka
import WebhookRelay.Wire.Values
import WebhookRelay.Wire.Broker
import WebhookRelay.Wire.EndToEnd
