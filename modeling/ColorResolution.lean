import ColorResolution.Binary.Bits
import ColorResolution.Color.Channel
import ColorResolution.Color.Hex
import ColorResolution.Loader.Basic
import ColorResolution.Matcher
import ColorResolution.Fetch.FileTree
import ColorResolution.Fetch.Web
import ColorResolution.Functional.Basic
import ColorResolution.Json.Basic
import ColorResolution.Json.Reader
import ColorResolution.Json.Text
import ColorResolution.Json.Written
import ColorResolution.Loader.Script
import ColorResolution.Main
import ColorResolution.Palette
import ColorResolution.Payload
import ColorResolution.Registry
import ColorResolution.Source
import ColorResolution.Table
import ColorResolution.Proofs.Loader.Change
import ColorResolution.Proofs.Loader.Conservation
import ColorResolution.Proofs.Loader.Callbacks
import ColorResolution.Proofs.Loader.Delivery
import ColorResolution.Proofs.Functional.Comments
import ColorResolution.Proofs.Functional.Grammar
import ColorResolution.Proofs.Payload.Grammar
import ColorResolution.Proofs.Resolver.Refusal
import ColorResolution.Proofs.Loader.Order
import ColorResolution.Proofs.Loader.Provenance
import ColorResolution.Proofs.Fetch.Invalidation
import ColorResolution.Proofs.Fetch.Transparency
import ColorResolution.Proofs.Loader.Caching
import ColorResolution.Proofs.Payload.PlainText
import ColorResolution.Proofs.Hex.Canonical
import ColorResolution.Proofs.Loader.Observation
import ColorResolution.Proofs.Loader.Separation
import ColorResolution.Proofs.Loader.Stale
import ColorResolution.Proofs.Loader.Agreement
import ColorResolution.Proofs.Loader.Cancellation
import ColorResolution.Proofs.Functional.LetterCase
import ColorResolution.Proofs.Resolver.LetterCase
import ColorResolution.Proofs.Resolver.Precedence
import ColorResolution.Proofs.Resolver.Questions
import ColorResolution.Proofs.Binary.Rounding
import ColorResolution.Proofs.Color.Levels
import ColorResolution.Proofs.Text.Decimal
import ColorResolution.Proofs.Functional.Integers
import ColorResolution.Proofs.Json.Integers
import ColorResolution.Proofs.Payload.Integers
import ColorResolution.Proofs.Hex.Bytes
import ColorResolution.Proofs.Payload.Bodies
import ColorResolution.Proofs.Json.Strings
import ColorResolution.Proofs.Table
import ColorResolution.Proofs.Registry.Loading
import ColorResolution.Proofs.Loader.Shutdown
import ColorResolution.Proofs.Fetch.Scheme
import ColorResolution.Proofs.Text.Slices
import ColorResolution.Proofs.Fetch.Permission
import ColorResolution.Proofs.Source.Classification
import ColorResolution.Proofs.Loader.Batch
import ColorResolution.Proofs.Resolver.BareHex
import ColorResolution.Proofs.Binary.Values
import ColorResolution.Proofs.Palette
import ColorResolution.Proofs.Color.Accuracy
