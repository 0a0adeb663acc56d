import TagRental.Main
import TagRental.Rental.History
import TagRental.Proofs.Rental.ItemLife
import TagRental.Proofs.Rental.Occasions
import TagRental.Proofs.Rental.PushOrigin
import TagRental.Proofs.Gateway.MessageReading
import TagRental.Proofs.Rental.RecordInvariant
import TagRental.Proofs.Rental.Separation
import TagRental.Proofs.Json.ScalarReading
import TagRental.Proofs.Json.ReadBack
import TagRental.Proofs.Gateway.Chunking
import TagRental.Proofs.Gateway.Lines
import TagRental.Proofs.Gateway.TagText
import TagRental.Proofs.Gateway.ResponseStream
import TagRental.Proofs.Json.KeyOrder
import TagRental.Proofs.Link.Reception
import TagRental.Proofs.Json.SameValue
import TagRental.Proofs.Gateway.MemberTable
import TagRental.Proofs.Gateway.RequestText
import TagRental.Proofs.Json.ObjectText
import TagRental.Proofs.Rental.TableOrder
import TagRental.Proofs.Rental.OutletIndependence
import TagRental.Proofs.Rental.LastTold
import TagRental.Proofs.Json.Turns
import TagRental.Proofs.Json.UnfinishedText
import TagRental.Proofs.Link.Writing
import TagRental.Proofs.Link.Polling
import TagRental.Proofs.Link.Division
import TagRental.Proofs.Link.WholeFrames
import TagRental.Proofs.Link.TornFrames
import TagRental.Proofs.Gateway.Accounting
import TagRental.Proofs.Rental.Sweeping
import TagRental.Proofs.Link.Echo
import TagRental.Proofs.Link.Asking
import TagRental.Proofs.Service.Moves
import TagRental.Proofs.Service.Course
import TagRental.Proofs.Service.WireOrder
import TagRental.Proofs.Rental.FrameEffect
import TagRental.Proofs.Rental.SweepSequence
import TagRental.Proofs.Rental.Retransmission
import TagRental.Proofs.Link.Cancellation
import TagRental.Proofs.Link.RestingTimes
import TagRental.Proofs.Daemon.Reopening
import TagRental.Proofs.Gateway.TagSpelling
import TagRental.Proofs.Gateway.TagOrder
import TagRental.Proofs.Rental.Snapshot
import TagRental.Proofs.Service.ReportedDurations
import TagRental.Proofs.Json.Surroundings
import TagRental.Proofs.Link.LineEndings
import TagRental.Proofs.Text.Words
import TagRental.Proofs.Console.Session
import TagRental.Proofs.Calendar.DayCount
import TagRental.Proofs.Calendar.Timestamp
import TagRental.Proofs.Console.Legibility
import TagRental.Proofs.Toml.DistinctKeys
import TagRental.Proofs.Schema.Filling
import TagRental.Proofs.Config.Layers
import TagRental.Proofs.Service.Rules
import TagRental.Proofs.Daemon.Layering
