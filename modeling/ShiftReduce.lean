import ShiftReduce.Files.Volume
import ShiftReduce.Main
import ShiftReduce.Proofs.Answers
import ShiftReduce.Proofs.Spelling
import ShiftReduce.Proofs.Racing
import ShiftReduce.Proofs.MaximalMunch
import ShiftReduce.Proofs.Rounds
import ShiftReduce.Proofs.Lossless
import ShiftReduce.Proofs.Turns
import ShiftReduce.Proofs.Supplies
import ShiftReduce.Proofs.Frontier
import ShiftReduce.Proofs.Soundness
import ShiftReduce.Proofs.Lineups
import ShiftReduce.Proofs.Contexts
import ShiftReduce.Proofs.Replay
import ShiftReduce.Proofs.Peeking
import ShiftReduce.Proofs.Conservation
import ShiftReduce.Proofs.Closed
import ShiftReduce.Proofs.Sessions
import ShiftReduce.Proofs.Safety
import ShiftReduce.Proofs.Encoding
import ShiftReduce.Proofs.Reading
import ShiftReduce.Proofs.Interruptions
import ShiftReduce.Proofs.History
import ShiftReduce.Proofs.Calls
import ShiftReduce.Proofs.Steering
import ShiftReduce.Proofs.Jumps
import ShiftReduce.Proofs.Postorder
import ShiftReduce.Proofs.Stepwise
import ShiftReduce.Proofs.Iteration
import ShiftReduce.Proofs.Decoding
import ShiftReduce.Proofs.Finality
import ShiftReduce.Proofs.Cutting
import ShiftReduce.Proofs.Listings
import ShiftReduce.Proofs.Sheets
import ShiftReduce.Proofs.Comments
import ShiftReduce.Proofs.Vocabulary
import ShiftReduce.Proofs.Hearings
import ShiftReduce.Proofs.Diagnosis
import ShiftReduce.Proofs.Decisions
import ShiftReduce.Proofs.Expressions
import ShiftReduce.Proofs.Numerals
import ShiftReduce.Proofs.Closings
import ShiftReduce.Proofs.Quotations
import ShiftReduce.Proofs.Denotations
import ShiftReduce.Proofs.NumeralValues
import ShiftReduce.Proofs.Wrappers
import ShiftReduce.Proofs.Defects
import ShiftReduce.Proofs.Violations
import ShiftReduce.Proofs.MessageLists
import ShiftReduce.Proofs.Words
import ShiftReduce.Proofs.Spacing
import ShiftReduce.Proofs.Lookups
import ShiftReduce.Proofs.Attachments
import ShiftReduce.Proofs.Lookaheads
import ShiftReduce.Proofs.Commands
