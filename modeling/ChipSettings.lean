import ChipSettings.Dialog.View
import ChipSettings.Proofs.App.Buttons
import ChipSettings.Proofs.App.Discarded
import ChipSettings.Proofs.App.FixedFile
import ChipSettings.Proofs.Document.Leftover
import ChipSettings.Proofs.Document.NormalForm
import ChipSettings.Proofs.Document.NumberElement
import ChipSettings.Proofs.Document.RootElement
import ChipSettings.Proofs.Form.Exchange
import ChipSettings.Proofs.Form.LayerHistory
import ChipSettings.Proofs.Form.LayerNames
import ChipSettings.Proofs.Form.NumberTexts
import ChipSettings.Proofs.Form.Overwrite
import ChipSettings.Proofs.Form.Restart
import ChipSettings.Proofs.Store.LastWritten
import ChipSettings.Proofs.Store.Saving
