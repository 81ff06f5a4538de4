import HotelPms.Boost
import HotelPms.Gui.BatchOnBoard
import HotelPms.Gui.MoveReservationTool
import HotelPms.Gui.NewReservationTool
import HotelPms.Hotel.Mutators
import HotelPms.Hotel.OrderIndependence
import HotelPms.Json
import HotelPms.Net.Batches
import HotelPms.Net.Connection
import HotelPms.Net.Messages
import HotelPms.Persistence.Operations
import HotelPms.Server.ReadYourWrites
import HotelPms.Sqlite.Deletion
import HotelPms.Sqlite.Identity
import HotelPms.Sqlite.Observers
import HotelPms.Sqlite.Revisions
import HotelPms.Sqlite.SingleId
import HotelPms.Sqlite.FalseSuccess
import HotelPms.Sqlite.Shutdown
import HotelPms.Fas.FutureChain
import HotelPms.Fas.StreamPipeline
import HotelPms.Gui.EditReservationStream
import HotelPms.Gui.Resolver
import HotelPms.Gui.UneditedSave
import HotelPms.Persistence.RoundTrip
import HotelPms.Sqlite.Hotels
import HotelPms.Sqlite.Reservations
import HotelPms.Sqlite.UnknownEndpoints
import HotelPms.Sqlite.Statement
import HotelPms.Fas.Cancellation
import HotelPms.Gui.ChangeIntegrator
import HotelPms.Gui.PlanningBoardLayout
import HotelPms.Server.StreamCommands
import HotelPms.Server.RemoteObservers
import HotelPms.Fas.ThreadedExecutor
import HotelPms.Fas.FutureProgress
import HotelPms.Fas.StreamProgress
import HotelPms.Sqlite.WorkerProgress
import HotelPms.Fas.StreamCancellation
import HotelPms.Server.RemoteDelivery
