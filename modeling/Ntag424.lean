import Ntag424.Spec.Bytes
import Ntag424.Spec.Cipher
import Ntag424.Spec.Primitives
import Ntag424.Spec.Transport
import Ntag424.Spec.Session
import Ntag424.Spec.SecureMessaging
import Ntag424.Spec.FileSettings
import Ntag424.Spec.Ndef
import Ntag424.Spec.Commands
import Ntag424.Spec.NdefRead
import Ntag424.Spec.Exchange
import Ntag424.Spec.KeyFile
import Ntag424.Spec.Main
import Ntag424.Spec.Cli
import Ntag424.Proofs.Padding
import Ntag424.Proofs.Subkeys
import Ntag424.Proofs.Cmac
import Ntag424.Proofs.Crc
import Ntag424.Proofs.Auth
import Ntag424.Proofs.SecureMessaging
import Ntag424.Proofs.FileSettings
import Ntag424.Proofs.Ndef
import Ntag424.Proofs.Commands
import Ntag424.Proofs.SdmSetup
import Ntag424.Proofs.NdefRead
import Ntag424.Proofs.Channel
import Ntag424.Proofs.Exchange
import Ntag424.Proofs.KeyFile
import Ntag424.Proofs.Main
import Ntag424.Proofs.KeyStore
import Ntag424.Proofs.Cli
