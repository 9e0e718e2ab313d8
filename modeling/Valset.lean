import Valset.Abi
import Valset.Abi.Decode
import Valset.Abi.Encode
import Valset.Amount
import Valset.Bytes
import Valset.Bytes.Hex
import Valset.Bytes.Literal
import Valset.Chain.Node
import Valset.Chain.Script
import Valset.Chain.ScriptJson
import Valset.Chain.Transaction
import Valset.CommandLine.Command
import Valset.CommandLine.ConfigCommand
import Valset.CommandLine.Context
import Valset.CommandLine.Dialogue
import Valset.CommandLine.Error
import Valset.CommandLine.Grammar
import Valset.CommandLine.JsonArgument
import Valset.CommandLine.KeyCommand
import Valset.CommandLine.MessageCommand
import Valset.CommandLine.Parser
import Valset.CommandLine.Process
import Valset.CommandLine.Readers
import Valset.CommandLine.SettingsFile
import Valset.CommandLine.StakingCommand
import Valset.CommandLine.Surroundings
import Valset.CommandLine.ValidatorCommand
import Valset.Config
import Valset.Contract.Function
import Valset.Contract.Revert
import Valset.Contract.Structs
import Valset.Error
import Valset.Event
import Valset.Event.Record
import Valset.Files
import Valset.Files.Path
import Valset.Files.Toml
import Valset.Files.Tree
import Valset.Hash.Keccak256
import Valset.Hash.Scrypt
import Valset.Hash.Sha256
import Valset.Id
import Valset.Id.Base58
import Valset.Id.Bech32
import Valset.Id.Cb58
import Valset.Id.Error
import Valset.Id.Json
import Valset.Json
import Valset.Json.Parser
import Valset.Json.Printer
import Valset.Json.Reader
import Valset.Main
import Valset.Manager.MessageLibrary
import Valset.Manager.Operation
import Valset.Manager.StakingManager
import Valset.Manager.ValidatorManager
import Valset.Message
import Valset.Message.Conversion
import Valset.Message.Error
import Valset.Message.Json
import Valset.Message.Owner
import Valset.Message.Packed
import Valset.Message.Period
import Valset.Number.Double
import Valset.Program
import Valset.Proofs.Abi.RoundTrip
import Valset.Proofs.Abi.Word
import Valset.Proofs.Bytes
import Valset.Proofs.CommandLine.ConfigCommands
import Valset.Proofs.CommandLine.MessageCommands
import Valset.Proofs.CommandLine.Surroundings
import Valset.Proofs.Config
import Valset.Proofs.Contract.Reverts
import Valset.Proofs.Contract.RoundTrip
import Valset.Proofs.Contract.State
import Valset.Proofs.Conversation
import Valset.Proofs.Event.ByteArrays
import Valset.Proofs.Event.Fields
import Valset.Proofs.Event.Identity
import Valset.Proofs.Event.Place
import Valset.Proofs.Event.Recognition
import Valset.Proofs.Files.Faults
import Valset.Proofs.Files.Path
import Valset.Proofs.Files.Tree
import Valset.Proofs.Files.TreePrograms
import Valset.Proofs.Files.Undivided
import Valset.Proofs.Files.Written
import Valset.Proofs.Hash.Keccak256
import Valset.Proofs.Id
import Valset.Proofs.Id.Cb58
import Valset.Proofs.Id.OwnerAddress
import Valset.Proofs.Interleaving
import Valset.Proofs.Json.RoundTrip
import Valset.Proofs.Manager.Confirmation
import Valset.Proofs.Manager.Funding
import Valset.Proofs.Manager.Reading
import Valset.Proofs.Manager.Reporting
import Valset.Proofs.Message.Agreement
import Valset.Proofs.Message.Conversion
import Valset.Proofs.Message.FieldSequences
import Valset.Proofs.Message.Fields
import Valset.Proofs.Message.Identity
import Valset.Proofs.Message.Json
import Valset.Proofs.Message.Kinds
import Valset.Proofs.Message.Lengths
import Valset.Proofs.Message.Owner
import Valset.Proofs.Message.Precedence
import Valset.Proofs.Message.RoundTrip
import Valset.Proofs.Message.Written
import Valset.Proofs.Program
import Valset.Proofs.Scan.Appending
import Valset.Proofs.Scan.CatchingUp
import Valset.Proofs.Scan.CheckpointFile
import Valset.Proofs.Scan.CheckpointSteps
import Valset.Proofs.Scan.Durability
import Valset.Proofs.Scan.Follow
import Valset.Proofs.Scan.HandOver
import Valset.Proofs.Scan.Interruption
import Valset.Proofs.Scan.LateEvents
import Valset.Proofs.Scan.Paging
import Valset.Proofs.Scan.ReadBack
import Valset.Proofs.Scan.Recovery
import Valset.Proofs.Scan.Reorganisation
import Valset.Proofs.Scan.Repetitions
import Valset.Proofs.Scan.Replay
import Valset.Proofs.Scan.Transcript
import Valset.Proofs.Scan.Windows
import Valset.Proofs.Text.Hex
import Valset.Proofs.Text.Utf8
import Valset.Proofs.Toml.Drafts
import Valset.Proofs.Toml.Numbers
import Valset.Proofs.Toml.RoundTrip
import Valset.Proofs.Toml.Statements
import Valset.Proofs.Toml.Strings
import Valset.Proofs.Toml.Tables
import Valset.Proofs.Toml.Values
import Valset.Proofs.Validator.Check
import Valset.Proofs.Wallet.Encryption
import Valset.Proofs.Wallet.Keystore
import Valset.Proofs.Wallet.Returning
import Valset.Proofs.Wallet.SeveralKeys
import Valset.Proofs.Warp
import Valset.Scan.Checkpoint
import Valset.Scan.Dialogue
import Valset.Scan.Follow
import Valset.Scan.History
import Valset.Scan.Output
import Valset.Scan.OutputFile
import Valset.Scan.Parameters
import Valset.Scan.Scanner
import Valset.Scan.Surroundings
import Valset.Text.Blank
import Valset.Text.Outline
import Valset.Text.Quoted
import Valset.Text.Shapeless
import Valset.Text.Utf8
import Valset.Toml
import Valset.Toml.Document
import Valset.Toml.Parser
import Valset.Toml.Printer
import Valset.Url
import Valset.Url.Punycode
import Valset.Validator
import Valset.Validator.Check
import Valset.Validator.Json
import Valset.Wallet.Aes
import Valset.Wallet.Curve
import Valset.Wallet.Keyfile
import Valset.Wallet.Keystore
import Valset.Wallet.PrivateKey
import Valset.Wallet.Store
import Valset.Warp
