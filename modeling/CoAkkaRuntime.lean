import CoAkkaRuntime.Bridge.SymbolSet
import CoAkkaRuntime.Codec.DeadletterSpec
import CoAkkaRuntime.Codec.DecodeSafety
import CoAkkaRuntime.Codec.VarintExact
import CoAkkaRuntime.Host.AskIdentity
import CoAkkaRuntime.Host.RegistrationBudget
import CoAkkaRuntime.Host.SentOptions
import CoAkkaRuntime.Host.Targets
import CoAkkaRuntime.Session.AskTicketSpec
import CoAkkaRuntime.Session.SessionLifecycle
import CoAkkaRuntime.Session.CloseLaw
import CoAkkaRuntime.Stream.OwnersPlaces
import CoAkkaRuntime.Stream.CallbackKeys
import CoAkkaRuntime.Stream.CapacityHeadroom
import CoAkkaRuntime.Stream.AdmitOutcomes
import CoAkkaRuntime.Stream.StorageBounds
import CoAkkaRuntime.Lane.StopRefusal
import CoAkkaRuntime.Lane.RootsReleased
import CoAkkaRuntime.Lane.StartupUnwinds
import CoAkkaRuntime.Ask.Answers
import CoAkkaRuntime.Ask.Progress
import CoAkkaRuntime.Session.TicketOwners
import CoAkkaRuntime.Session.Shutdown
import CoAkkaRuntime.Session.RunnerTurns
import CoAkkaRuntime.Bridge.ProcessLibrary
import CoAkkaRuntime.Host.StartMemory
import CoAkkaRuntime.Host.DispatchAccounts
import CoAkkaRuntime.Grant.StreamTravel
import CoAkkaRuntime.Transport.NativeText
import CoAkkaRuntime.Codec.Resume
import CoAkkaRuntime.Codec.NormalForm
import CoAkkaRuntime.Stream.FrameCarriage
