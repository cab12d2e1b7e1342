import Calculator.CommandLine.Run
import Calculator.Main
import Calculator.Proofs.Service
import Calculator.Proofs.Phrase
import Calculator.Registry.Built
import Calculator.Proofs.Layers
import Calculator.Proofs.Parsing
import Calculator.Proofs.Brackets
import Calculator.Proofs.Conservation
import Calculator.Proofs.Readback
import Calculator.Proofs.Agreement
import Calculator.Proofs.Guarded
import Calculator.Proofs.Faults
import Calculator.Proofs.Signs
import Calculator.Proofs.Culprit
import Calculator.Proofs.Elsewhere
import Calculator.Proofs.Overlays
import Calculator.Proofs.Metering
import Calculator.Proofs.Misdeclared
import Calculator.Proofs.Pieces
import Calculator.Proofs.Power
import Calculator.Proofs.Totality
import Calculator.Proofs.Escapes
import Calculator.Proofs.Sources
import Calculator.Proofs.Depth
import Calculator.Proofs.Arrangement
import Calculator.Proofs.Display
import Calculator.Proofs.IntegerText
import Calculator.Proofs.Showing
