import RestaurantAssistant.Async.Program
import RestaurantAssistant.Async.Server
import RestaurantAssistant.Js.Number
import RestaurantAssistant.Js.Rounding
import RestaurantAssistant.Js.Pattern
import RestaurantAssistant.Js.Json
import RestaurantAssistant.Js.Decorators
import RestaurantAssistant.Js.For
import RestaurantAssistant.Js.Double
import RestaurantAssistant.TimeUtils
import RestaurantAssistant.ReservationUtils
import RestaurantAssistant.Dto
import RestaurantAssistant.Database
import RestaurantAssistant.Validation
import RestaurantAssistant.Redis
import RestaurantAssistant.Service
import RestaurantAssistant.Binary64
import RestaurantAssistant.TimeCodec
import RestaurantAssistant.World
import RestaurantAssistant.Mutations
import RestaurantAssistant.Queries
import RestaurantAssistant.CacheKey
import RestaurantAssistant.Clearing
import RestaurantAssistant.WriteOrder
import RestaurantAssistant.Coherence
import RestaurantAssistant.CacheTransparency
import RestaurantAssistant.CacheRaces
import RestaurantAssistant.Capacity
import RestaurantAssistant.SequentialCapacity
import RestaurantAssistant.Offers
import RestaurantAssistant.Interleaving
import RestaurantAssistant.ConcurrentUpdates
import RestaurantAssistant.Failures
import RestaurantAssistant.StoredRows
import RestaurantAssistant.Loops
import RestaurantAssistant.EndlessLoops
import RestaurantAssistant.Windows
import RestaurantAssistant.KeyedAnswers
import RestaurantAssistant.Users
import RestaurantAssistant.Login
import RestaurantAssistant.Js.Date
import RestaurantAssistant.Instants
import RestaurantAssistant.Searches
import RestaurantAssistant.Pages
import RestaurantAssistant.UpdatedFields
import RestaurantAssistant.Async.Embedding
import RestaurantAssistant.Async.Moments
import RestaurantAssistant.Async.Serial
import RestaurantAssistant.Js.JsonValue
import RestaurantAssistant.CacheText
import RestaurantAssistant.Provenance
import RestaurantAssistant.Ledger
import RestaurantAssistant.Accounts
import RestaurantAssistant.AccountOrder
import RestaurantAssistant.Tokens
import RestaurantAssistant.Keyed
import RestaurantAssistant.AtomicBook
import RestaurantAssistant.Async.Gate
import RestaurantAssistant.Js.Joined
import RestaurantAssistant.Resolver
import RestaurantAssistant.Async.Contract
import RestaurantAssistant.Outcomes
import RestaurantAssistant.Suggestions
import RestaurantAssistant.Async.Progress
import RestaurantAssistant.WaitFree
import RestaurantAssistant.WholeSlots
