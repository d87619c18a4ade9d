import BusWindow.Delivery
import BusWindow.Page
import BusWindow.Message.Reader
import BusWindow.Settings.Form
import BusWindow.Main
import BusWindow.Http.Router
import BusWindow.Proofs.Sessions
import BusWindow.Proofs.QueryMeaning
import BusWindow.Proofs.Dump
import BusWindow.Proofs.Markup
import BusWindow.Proofs.Shutdown
import BusWindow.Proofs.Results
import BusWindow.Proofs.Answers
import BusWindow.Proofs.Schedules
import BusWindow.Proofs.Endpoints
import BusWindow.Proofs.Unions
import BusWindow.Proofs.Pages
import BusWindow.Proofs.Tallies
import BusWindow.Proofs.Everything
import BusWindow.Proofs.Overload
import BusWindow.Proofs.Malformed
import BusWindow.Proofs.Folding
import BusWindow.Proofs.Histogram
import BusWindow.Proofs.Adapter
import BusWindow.Proofs.Escaping
import BusWindow.Proofs.Displays
import BusWindow.Proofs.Records
import BusWindow.Proofs.Outcomes
import BusWindow.Proofs.Publishing
import BusWindow.Proofs.Advice
import BusWindow.Proofs.Documents
import BusWindow.Proofs.Layers
import BusWindow.Proofs.Starting
