import UplinkShaper.Command.Script
import UplinkShaper.Main
import UplinkShaper.Proofs.Allocation.Acceptance
import UplinkShaper.Proofs.Allocation.Division
import UplinkShaper.Proofs.Allocation.Reordering
import UplinkShaper.Proofs.Allocation.Rounds
import UplinkShaper.Proofs.Allocation.Vetting
import UplinkShaper.Proofs.Allocation.Warnings
import UplinkShaper.Proofs.Allocation.WellFormed
import UplinkShaper.Proofs.Backend.AddressRules
import UplinkShaper.Proofs.Backend.Copies
import UplinkShaper.Proofs.Backend.PortRules
import UplinkShaper.Proofs.Backend.Reproduction
import UplinkShaper.Proofs.Classify.Constraints
import UplinkShaper.Proofs.Classify.Declaration
import UplinkShaper.Proofs.Classify.Landing
import UplinkShaper.Proofs.Classify.Meaning
import UplinkShaper.Proofs.Config.Overriding
import UplinkShaper.Proofs.Config.Surfacing
import UplinkShaper.Proofs.Console.ExitCodes
import UplinkShaper.Proofs.Console.Orderly
import UplinkShaper.Proofs.Console.Station
import UplinkShaper.Proofs.Counter.Listing
import UplinkShaper.Proofs.Counter.Readings
import UplinkShaper.Proofs.Counter.Splitting
import UplinkShaper.Proofs.Counter.Views
import UplinkShaper.Proofs.Session.Interruptions
import UplinkShaper.Proofs.Session.Keeping
import UplinkShaper.Proofs.Session.Recalling
import UplinkShaper.Proofs.Session.Reports
import UplinkShaper.Proofs.Session.Serving
import UplinkShaper.Proofs.Session.Turns
import UplinkShaper.Proofs.Session.Verdicts
