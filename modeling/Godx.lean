import Godx.Go
import Godx.Vm.Types
import Godx.Vm.Merkle
import Godx.Vm.Validation
import Godx.Vm.Proof.Climb
import Godx.Vm.Proof.MerkleTree
import Godx.Vm.Proof.ToyCrypto
import Godx.Vm.Proof.MerkleSound
import Godx.Vm.Proof.StorageProof
import Godx.Vm.Proof.Contracts
import Godx.StorageManager.Shutdown
import Godx.StorageClient.UploadCleanup
import Godx.StorageClient.Memory
import Godx.DxFile.Persist
import Godx.DxFile.Proof.Persist
import Godx.DxFile.Metadata
import Godx.DxFile.Proof.Metadata
import Godx.StorageClient.Download
import Godx.Eth.Peer
import Godx.Storage.ContractID
