import ItemQuery.Dictionary
import ItemQuery.Double
import ItemQuery.Double.Shortest
import ItemQuery.Double.Layout
import ItemQuery.Numeral
import ItemQuery.Base64
import ItemQuery.Text.Unprintable
import ItemQuery.Text.Quoted
import ItemQuery.AttributeValue
import ItemQuery.AttributeValue.Wire
import ItemQuery.Marshal
import ItemQuery.Predicate.Kind
import ItemQuery.Error
import ItemQuery.Config
import ItemQuery.Json.Record
import ItemQuery.Placeholder
import ItemQuery.Predicate
import ItemQuery.Condition
import ItemQuery.Binder
import ItemQuery.Input.Read
import ItemQuery.Input.Write
import ItemQuery.Request
import ItemQuery.Verb
import ItemQuery.ReadDraft
import ItemQuery.ReadDraft.Script
import ItemQuery.UpdateDraft
import ItemQuery.BatchDraft
import ItemQuery.Table
import ItemQuery.Workspace
import ItemQuery.Json
import ItemQuery.Json.Printer
import ItemQuery.Json.Reader
import ItemQuery.Proofs.Phrase
import ItemQuery.Proofs.Phrase.Lexeme
import ItemQuery.Proofs.Phrase.Reader
import ItemQuery.Proofs.Draw
import ItemQuery.Proofs.Predicate
import ItemQuery.Proofs.UniqueReading
import ItemQuery.Proofs.Bindings
import ItemQuery.Proofs.Growth
import ItemQuery.Proofs.Run
import ItemQuery.Proofs.Ledger
import ItemQuery.Proofs.Integrity
import ItemQuery.Proofs.Embedding
import ItemQuery.Proofs.Embedding.Agreement
import ItemQuery.Proofs.Embedding.LaterDraws
import ItemQuery.Proofs.Lockstep
import ItemQuery.Proofs.Simulation
import ItemQuery.Proofs.Capture
import ItemQuery.Proofs.Fields
import ItemQuery.Proofs.Translation
import ItemQuery.Proofs.TextTokens
import ItemQuery.Proofs.Provenance
import ItemQuery.Proofs.Updates
import ItemQuery.Proofs.References
import ItemQuery.Proofs.References.Compiled
import ItemQuery.Proofs.Renaming
import ItemQuery.Proofs.Renaming.Requests
import ItemQuery.Proofs.Renaming.Words
import ItemQuery.Proofs.Renaming.Updates
import ItemQuery.Proofs.TableScript.Strategies
import ItemQuery.Proofs.WireForm
import ItemQuery.Proofs.WireForm.Strict
import ItemQuery.Proofs.Overrides
import ItemQuery.Proofs.Marshaling
import ItemQuery.Proofs.Batches
import ItemQuery.Proofs.Rounding
import ItemQuery.Proofs.Rounding.Numerals
import ItemQuery.Proofs.Unmarshaling
import ItemQuery.Proofs.Embedding.Nesting
import ItemQuery.Proofs.ByteOrder
import ItemQuery.Proofs.Updates.Growth
import ItemQuery.Proofs.NonFinite
import ItemQuery.Proofs.Updates.LastValues
import ItemQuery.Proofs.TableScript.Frame
import ItemQuery.Proofs.TableScript.Ownership
import ItemQuery.Proofs.TableScript.Interleaving
import ItemQuery.Proofs.Verbs
import ItemQuery.Proofs.Updates.Drawing
import ItemQuery.Proofs.Sessions
import ItemQuery.Proofs.Counting
import ItemQuery.Proofs.Sessions.Drafts
import ItemQuery.Proofs.Sessions.Tokens
import ItemQuery.Proofs.WireForm.NormalForm
import ItemQuery.Proofs.Collisions
import ItemQuery.Proofs.Unmarshaling.Canonical
import ItemQuery.Proofs.NumberTexts
import ItemQuery.Proofs.MapEquality
import ItemQuery.Proofs.Updates.Patching
import ItemQuery.Proofs.Extension
import ItemQuery.Proofs.Sessions.Reads
import ItemQuery.Proofs.Specifications
import ItemQuery.Proofs.KeyConditions
import ItemQuery.Proofs.EmptyGroups
import ItemQuery.Proofs.Batches.Sides
import ItemQuery.Proofs.Creation
import ItemQuery.Proofs.Counterparts
