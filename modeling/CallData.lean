import CallData.Contract.Basic
import CallData.Proofs.Traversal
import CallData.Proofs.Spelling
import CallData.Proofs.ValueParts
import CallData.Proofs.Layout
import CallData.Proofs.BlockTable
import CallData.Proofs.ArrayBlock
import CallData.Proofs.Meaning
import CallData.Proofs.CallLayout
import CallData.Proofs.Delimiting
import CallData.Proofs.Injectivity
import CallData.Proofs.Acceptance
import CallData.Proofs.Attempts
import CallData.Proofs.JsonArguments
import CallData.Proofs.LastDeclaration
import CallData.Proofs.ArgumentShapes
import CallData.Proofs.ArgumentRecords
import CallData.Proofs.Denotation
import CallData.Proofs.InlineInterface
import CallData.Proofs.TypeTexts
import CallData.Proofs.TypeGrammar
import CallData.Proofs.InterfaceContents
import CallData.Proofs.ChecksumAddress
import CallData.Proofs.ChecksumForms
import CallData.Proofs.TextOutcomes
import CallData.Proofs.TextsAsBytes
import CallData.Proofs.NamedCalls
import CallData.Proofs.Respelling
import CallData.Proofs.ProgressReports
import CallData.Proofs.ContractSessions
import CallData.Proofs.SignatureText
