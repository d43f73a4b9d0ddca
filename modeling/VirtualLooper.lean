import VirtualLooper.Script.Session
import VirtualLooper.Scenario.Player
import VirtualLooper.Yaml.Content
import VirtualLooper.Proofs.Queue.Agenda
import VirtualLooper.Proofs.Looper.Delivery
import VirtualLooper.Proofs.Looper.Order
import VirtualLooper.Proofs.Looper.Sequential
import VirtualLooper.Proofs.Looper.Duty
import VirtualLooper.Proofs.Looper.Shift
import VirtualLooper.Proofs.Looper.Session
import VirtualLooper.Proofs.Looper.Verdict
import VirtualLooper.Proofs.Looper.Interleaving
import VirtualLooper.Proofs.Looper.Alike
import VirtualLooper.Proofs.Looper.Autodispatch
import VirtualLooper.Proofs.Looper.Aftermath
import VirtualLooper.Proofs.Looper.Resumption
import VirtualLooper.Proofs.Looper.Block
import VirtualLooper.Proofs.Looper.Refusal
import VirtualLooper.Proofs.Looper.Noninterference
import VirtualLooper.Proofs.Script.Translation
import VirtualLooper.Proofs.Scenario.Verdict
import VirtualLooper.Proofs.Looper.Journal
import VirtualLooper.Proofs.Looper.Counting
import VirtualLooper.Proofs.Looper.Bound
import VirtualLooper.Proofs.Looper.Singly
import VirtualLooper.Proofs.Scenario.Keeping
import VirtualLooper.Proofs.Looper.Slicing
import VirtualLooper.Proofs.Looper.Rearming
import VirtualLooper.Proofs.Queue.Drains
import VirtualLooper.Proofs.Expectation.Order
import VirtualLooper.Proofs.Binary64.Rounding
import VirtualLooper.Proofs.Binary64.Numeral
import VirtualLooper.Proofs.Duration.Spelling
import VirtualLooper.Proofs.Duration.Seconds
import VirtualLooper.Proofs.Scenario.Respelling
import VirtualLooper.Proofs.Report.Forms
