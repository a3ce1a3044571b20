import ImgEngine.Pipeline.Bleed
import ImgEngine.Pipeline.Border
import ImgEngine.Pipeline.CropMarks

namespace ImgEngine.Pipeline

variable {F : Type}

-- What img_api_run_job draws on a canvas after the layout.
def finishSheet (canvas : ImgBuffer) (layout : ImgLayout) (job : ImgJob F) :
    Except ImgError ImgBuffer := do
  let canvas ← (if job.borderPx > 0 then imgDrawBorders canvas layout job.borderPx
    else .ok canvas : Except ImgError ImgBuffer)
  let canvas ← imgApplyBleed canvas layout job.bleedPx
  imgDrawCropMarks canvas layout job

end ImgEngine.Pipeline
