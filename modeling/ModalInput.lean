import ModalInput.Binding.Default
import ModalInput.Binding.Table
import ModalInput.Command
import ModalInput.Count
import ModalInput.Cursor.Entry
import ModalInput.Cursor.Reader
import ModalInput.Directory
import ModalInput.Engine.Display
import ModalInput.Engine.Execute
import ModalInput.Engine.Host
import ModalInput.Engine.Input
import ModalInput.Engine.Line
import ModalInput.Engine.Loop
import ModalInput.Engine.State
import ModalInput.Error
import ModalInput.Ex.Command
import ModalInput.Expression
import ModalInput.Key.Basic
import ModalInput.Key.Reader
import ModalInput.Key.Written
import ModalInput.KeyTable
import ModalInput.Mapping.Modes
import ModalInput.Mapping.Store
import ModalInput.Mode
import ModalInput.ModeStack
import ModalInput.NodeTable
import ModalInput.Options.Default
import ModalInput.Options.Definition
import ModalInput.Options.SetArgument
import ModalInput.Options.SetCommand
import ModalInput.Options.Store
import ModalInput.Options.Value
import ModalInput.Proofs.AlikeHosts
import ModalInput.Proofs.AltKeys
import ModalInput.Proofs.AssignedTexts
import ModalInput.Proofs.CheckedOptions
import ModalInput.Proofs.CommandLineMode
import ModalInput.Proofs.CommandStep
import ModalInput.Proofs.CommandTables
import ModalInput.Proofs.CommittedKeys
import ModalInput.Proofs.CompleteCommands
import ModalInput.Proofs.CountProducts
import ModalInput.Proofs.CountedCommands
import ModalInput.Proofs.CursorFields
import ModalInput.Proofs.CursorValues
import ModalInput.Proofs.DefaultKeys
import ModalInput.Proofs.Dropping
import ModalInput.Proofs.Emission
import ModalInput.Proofs.Escaping
import ModalInput.Proofs.EventTrace
import ModalInput.Proofs.Failures
import ModalInput.Proofs.Framing
import ModalInput.Proofs.HeldCommands
import ModalInput.Proofs.HostCalls
import ModalInput.Proofs.InsertTyping
import ModalInput.Proofs.KeyNotation
import ModalInput.Proofs.KeyPieces
import ModalInput.Proofs.KeysApart
import ModalInput.Proofs.KnownLines
import ModalInput.Proofs.Layers
import ModalInput.Proofs.ListOperations
import ModalInput.Proofs.ListedModes
import ModalInput.Proofs.LowestMode
import ModalInput.Proofs.Mapless
import ModalInput.Proofs.MappingHistory
import ModalInput.Proofs.Moves
import ModalInput.Proofs.NoOffsets
import ModalInput.Proofs.NodeAnswers
import ModalInput.Proofs.NodeInsertion
import ModalInput.Proofs.NodeLinks
import ModalInput.Proofs.NodeListing
import ModalInput.Proofs.NodeRemoval
import ModalInput.Proofs.NumberNotation
import ModalInput.Proofs.Operation
import ModalInput.Proofs.OptionKinds
import ModalInput.Proofs.OptionNames
import ModalInput.Proofs.OptionPlaces
import ModalInput.Proofs.OptionWrites
import ModalInput.Proofs.Passages
import ModalInput.Proofs.Reaction
import ModalInput.Proofs.RecordedKeys
import ModalInput.Proofs.RecordingToggles
import ModalInput.Proofs.Recordings
import ModalInput.Proofs.RefusedMarks
import ModalInput.Proofs.RelativeArguments
import ModalInput.Proofs.RemainingMappings
import ModalInput.Proofs.RepeatedOperators
import ModalInput.Proofs.ReplayedTyping
import ModalInput.Proofs.Replaying
import ModalInput.Proofs.Rewriting
import ModalInput.Proofs.ScopedCommands
import ModalInput.Proofs.SeenWrites
import ModalInput.Proofs.Session
import ModalInput.Proofs.SetModes
import ModalInput.Proofs.SetOutcomes
import ModalInput.Proofs.Settling
import ModalInput.Proofs.ShownKeys
import ModalInput.Proofs.ShownSelection
import ModalInput.Proofs.StoredNodes
import ModalInput.Proofs.TableContents
import ModalInput.Proofs.TableLookup
import ModalInput.Proofs.TemporaryModes
import ModalInput.Proofs.TextMappings
import ModalInput.Proofs.Tokenizer
import ModalInput.Proofs.ToldActions
import ModalInput.Proofs.ToldWrites
import ModalInput.Proofs.Transparency
import ModalInput.Proofs.TrimmedForest
import ModalInput.Proofs.Turns
import ModalInput.Proofs.TypedCounts
import ModalInput.Proofs.TypedPrefixes
import ModalInput.Proofs.TypedText
import ModalInput.Proofs.UndoGroups
import ModalInput.Proofs.ValidOptions
import ModalInput.Proofs.WrittenArguments
import ModalInput.Recorder
import ModalInput.Register
import ModalInput.Resolver.CommandLayer
import ModalInput.Resolver.Completion
import ModalInput.Resolver.Load
import ModalInput.Resolver.MappingLayer
import ModalInput.Resolver.Pending
import ModalInput.Resolver.Quiet
import ModalInput.Resolver.Run
import ModalInput.Resolver.State
import ModalInput.Resolver.Weight
import ModalInput.Text.Blank
import ModalInput.Text.Completion
import ModalInput.Text.Digits
import ModalInput.Text.Fields
import ModalInput.Text.Quoted
import ModalInput.Text.Uppercase
import ModalInput.Tower
