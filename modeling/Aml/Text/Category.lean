/-!
# General categories of code points

Every code point has one general category of the Unicode character database, version 15.0.
The database is stored as its runs of equal category in code point order: two letters name
the category and the hexadecimal number after them, when there is one, counts the code
points of the run. The runs cover all code points from 0 to 0x10FFFF.
-/
namespace Aml

/-- A general category of the Unicode character database. -/
inductive Category where
  | uppercaseLetter
  | lowercaseLetter
  | titlecaseLetter
  | modifierLetter
  | otherLetter
  | nonspacingMark
  | spacingMark
  | enclosingMark
  | decimalNumber
  | letterNumber
  | otherNumber
  | connectorPunctuation
  | dashPunctuation
  | openPunctuation
  | closePunctuation
  | initialPunctuation
  | finalPunctuation
  | otherPunctuation
  | mathSymbol
  | currencySymbol
  | modifierSymbol
  | otherSymbol
  | spaceSeparator
  | lineSeparator
  | paragraphSeparator
  | control
  | format
  | surrogate
  | privateUse
  | unassigned
  deriving DecidableEq

namespace Category

/-- The category named by two letters. -/
def ofLetters? : Char → Char → Option Category
  | 'L', 'u' => some .uppercaseLetter
  | 'L', 'l' => some .lowercaseLetter
  | 'L', 't' => some .titlecaseLetter
  | 'L', 'm' => some .modifierLetter
  | 'L', 'o' => some .otherLetter
  | 'M', 'n' => some .nonspacingMark
  | 'M', 'c' => some .spacingMark
  | 'M', 'e' => some .enclosingMark
  | 'N', 'd' => some .decimalNumber
  | 'N', 'l' => some .letterNumber
  | 'N', 'o' => some .otherNumber
  | 'P', 'c' => some .connectorPunctuation
  | 'P', 'd' => some .dashPunctuation
  | 'P', 's' => some .openPunctuation
  | 'P', 'e' => some .closePunctuation
  | 'P', 'i' => some .initialPunctuation
  | 'P', 'f' => some .finalPunctuation
  | 'P', 'o' => some .otherPunctuation
  | 'S', 'm' => some .mathSymbol
  | 'S', 'c' => some .currencySymbol
  | 'S', 'k' => some .modifierSymbol
  | 'S', 'o' => some .otherSymbol
  | 'Z', 's' => some .spaceSeparator
  | 'Z', 'l' => some .lineSeparator
  | 'Z', 'p' => some .paragraphSeparator
  | 'C', 'c' => some .control
  | 'C', 'f' => some .format
  | 'C', 's' => some .surrogate
  | 'C', 'o' => some .privateUse
  | 'C', 'n' => some .unassigned
  | _, _ => none

/-- The categories grouped under one letter; unassigned code points belong to no group. -/
def group? : Char → Option (List Category)
  | 'L' => some [.uppercaseLetter, .lowercaseLetter, .titlecaseLetter, .modifierLetter,
      .otherLetter]
  | 'M' => some [.nonspacingMark, .spacingMark, .enclosingMark]
  | 'N' => some [.decimalNumber, .letterNumber, .otherNumber]
  | 'P' => some [.connectorPunctuation, .dashPunctuation, .openPunctuation, .closePunctuation,
      .initialPunctuation, .finalPunctuation, .otherPunctuation]
  | 'S' => some [.mathSymbol, .currencySymbol, .modifierSymbol, .otherSymbol]
  | 'Z' => some [.spaceSeparator, .lineSeparator, .paragraphSeparator]
  | 'C' => some [.control, .format, .surrogate, .privateUse]
  | _ => none

/-- The runs of equal category, from code point 0 on. -/
def encodedRuns : List String := [
  "Cc20ZsPo3ScPo3PsPePoSmPoPdPo2NdaPo2Sm3Po2Lu1aPsPoPeSkPcSkLl1aPsSmPeSmCc21ZsPoSc4SoPoSkSoLoPi",
  "SmCfSoSkSoSmNo2SkLlPo2SkNoLoPfNo3PoLu17SmLu7Ll18SmLl8LuLlLuLlLuLlLuLlLuLlLuLlLuLlLuLlLuLlLu",
  "LlLuLlLuLlLuLlLuLlLuLlLuLlLuLlLuLlLuLlLuLlLuLlLuLlLuLlLuLlLuLlLuLlLuLlLuLl2LuLlLuLlLuLlLuLl",
  "LuLlLuLlLuLlLuLl2LuLlLuLlLuLlLuLlLuLlLuLlLuLlLuLlLuLlLuLlLuLlLuLlLuLlLuLlLuLlLuLlLuLlLuLlLu",
  "LlLuLlLuLlLuLlLuLlLu2LlLuLlLuLl3Lu2LlLuLlLu2LlLu3Ll2Lu4LlLu2LlLu3Ll3Lu2LlLu2LlLuLlLuLlLu2Ll",
  "LuLl2LuLlLu2LlLu3LlLuLlLu2Ll2LoLuLl3Lo4LuLtLlLuLtLlLuLtLlLuLlLuLlLuLlLuLlLuLlLuLlLuLlLuLl2Lu",
  "LlLuLlLuLlLuLlLuLlLuLlLuLlLuLlLuLl2LuLtLlLuLlLu3LlLuLlLuLlLuLlLuLlLuLlLuLlLuLlLuLlLuLlLuLlLu",
  "LlLuLlLuLlLuLlLuLlLuLlLuLlLuLlLuLlLuLlLuLlLuLlLuLlLuLlLuLlLuLlLuLlLuLlLuLl7Lu2LlLu2Ll2LuLl",
  "Lu4LlLuLlLuLlLuLlLuLl45LoLl1bLm12Sk4LmcSkeLm5Sk7LmSkLmSk11Mn70LuLlLuLlLmSkLuLlCn2LmLl3PoLu",
  "Cn4Sk2LuPoLu3CnLuCnLu2LlLu11CnLu9Ll23LuLl2Lu3Ll3LuLlLuLlLuLlLuLlLuLlLuLlLuLlLuLlLuLlLuLlLuLl",
  "LuLl5LuLlSmLuLlLu2Ll2Lu33Ll30LuLlLuLlLuLlLuLlLuLlLuLlLuLlLuLlLuLlLuLlLuLlLuLlLuLlLuLlLuLlLu",
  "LlLuLlSoMn5Me2LuLlLuLlLuLlLuLlLuLlLuLlLuLlLuLlLuLlLuLlLuLlLuLlLuLlLuLlLuLlLuLlLuLlLuLlLuLlLu",
  "LlLuLlLuLlLuLlLuLlLuLlLuLlLuLlLu2LlLuLlLuLlLuLlLuLlLuLlLuLl2LuLlLuLlLuLlLuLlLuLlLuLlLuLlLuLl",
  "LuLlLuLlLuLlLuLlLuLlLuLlLuLlLuLlLuLlLuLlLuLlLuLlLuLlLuLlLuLlLuLlLuLlLuLlLuLlLuLlLuLlLuLlLuLl",
  "LuLlLuLlLuLlLuLlLuLlLuLlLuLlLuLlLuLlLuLlLuLlLuLlLuLlLuLlLuLlLuLlLuLlCnLu26Cn2LmPo6Ll29PoPd",
  "Cn2So2ScCnMn2dPdMnPoMn2PoMn2PoMnCn8Lo1bCn4Lo4Po2CnbCf6Sm3Po2ScPo2So2MnbPoCfPo3Lo20LmLoaMn15",
  "NdaPo4Lo2MnLo63PoLoMn7CfSoMn6Lm2Mn2SoMn4Lo2NdaLo3So2LoPoeCnCfLoMnLo1eMn1bCn2Lo59MnbLoCneNda",
  "Lo21Mn9Lm2SoPo3LmCn2MnSc2Lo16Mn4LmMn9LmMn3LmMn5Cn2PofCnLo19Mn3Cn2PoCnLobCn5Lo18SkLo6CnCf2Cn6",
  "Mn8Lo29LmMn18CfMn20McLo36MnMcMnLoMc3Mn8Mc4MnMc2LoMn7LoaMn2Po2NdaPoLmLofMnMc2CnLo8Cn2Lo2Cn2",
  "Lo16CnLo7CnLoCn3Lo4Cn2MnLoMc3Mn4Cn2Mc2Cn2Mc2MnLoCn8McCn4Lo2CnLo3Mn2Cn2NdaLo2Sc2No6SoScLoPoMn",
  "Cn2Mn2McCnLo6Cn4Lo2Cn2Lo16CnLo7CnLo2CnLo2CnLo2Cn2MnCnMc3Mn2Cn4Mn2Cn2Mn3Cn3MnCn7Lo4CnLoCn7Nda",
  "Mn2Lo3MnPoCnaMn2McCnLo9CnLo3CnLo16CnLo7CnLo2CnLo5Cn2MnLoMc3Mn5CnMn2McCnMc2MnCn2LoCnfLo2Mn2",
  "Cn2NdaPoScCn7LoMn6CnMnMc2CnLo8Cn2Lo2Cn2Lo16CnLo7CnLo2CnLo5Cn2MnLoMcMnMcMn4Cn2Mc2Cn2Mc2MnCn7",
  "Mn2McCn4Lo2CnLo3Mn2Cn2NdaSoLoNo6CnaMnLoCnLo6Cn3Lo3CnLo4Cn3Lo2CnLoCnLo2Cn3Lo2Cn3Lo3Cn3LocCn4",
  "Mc2MnMc2Cn3Mc3CnMc3MnCn2LoCn6McCneNdaNo3So6ScSoCn5MnMc3MnLo8CnLo3CnLo17CnLo10Cn2MnLoMn3Mc4Cn",
  "Mn3CnMn4Cn7Mn2CnLo3Cn2LoCn2Lo2Mn2Cn2NdaCn7PoNo7SoLoMnMc2PoLo8CnLo3CnLo17CnLoaCnLo5Cn2MnLoMc",
  "MnMc5CnMnMc2CnMc2Mn2Cn7Mc2Cn6Lo2CnLo2Mn2Cn2NdaCnLo2McCncMn2Mc2Lo9CnLo3CnLo29Mn2LoMc3Mn4CnMc3",
  "CnMc3MnLoSoCn4Lo3McNo7Lo3Mn2Cn2NdaNo9SoLo6CnMnMc2CnLo12Cn3Lo18CnLo9CnLoCn2Lo7Cn3MnCn4Mc3Mn3",
  "CnMnCnMc8Cn6NdaCn2Mc2PoCncLo30MnLo2Mn7Cn4ScLo6LmMn8PoNdaPo2Cn25Lo2CnLoCnLo5CnLo18CnLoCnLoaMn",
  "Lo2Mn9LoCn2Lo5CnLmCnMn7CnNdaCn2Lo4Cn20LoSo3PofSoPoSo3Mn2So6NdaNoaSoMnSoMnSoMnPsPePsPeMc2Lo8",
  "CnLo24Cn4MneMcMn5PoMn2Lo5MnbCnMn24CnSo8MnSo6CnSo2Po5So4Po2Cn25Lo2bMc2Mn4McMn6McMn2Mc2Mn2Lo",
  "NdaPo6Lo6Mc2Mn2Lo4Mn3LoMc3Lo2Mc7Lo3Mn4LodMnMc2Mn2Mc6MnLoMcNdaMc3MnSo2Lu26CnLuCn5LuCn2Ll2bPo",
  "LmLl3Lo149CnLo4Cn2Lo7CnLoCnLo4Cn2Lo29CnLo4Cn2Lo21CnLo4Cn2Lo7CnLoCnLo4Cn2LofCnLo39CnLo4Cn2",
  "Lo43Cn2Mn3Po9No14Cn3Lo10SoaCn6Lu56Cn2Ll6Cn2PdLo26cSoPoLo11ZsLo1aPsPeCn3Lo4bPo3Nl3Lo8Cn7Lo12",
  "Mn3McCn9Lo13Mn2McPo2Cn9Lo12Mn2CncLodCnLo3CnMn2CncLo34Mn2McMn7Mc8MnMc2MnbPo3LmPo3ScLoMnCn2Nda",
  "Cn6NoaCn6Po6PdPo4Mn3CfMnNdaCn6Lo23LmLo35Cn7Lo5Mn2Lo22MnLoCn5Lo46CnaLo1fCnMn3Mc4Mn2Mc3Cn4Mc2",
  "MnMc6Mn3Cn4SoCn3Po2NdaLo1eCn2Lo5CnbLo2cCn4Lo1aCn6NdaNoCn3So22Lo17Mn2Mc2MnCn2Po2Lo35McMnMcMn7",
  "CnMnMcMnMc2Mn8Mc6MnaCn2MnNdaCn6NdaCn6Po7LmPo6Cn2MneMeMn10Cn31Mn4McLo2fMnMcMn5McMnMc5MnMc2Lo8",
  "Cn3NdaPo7SoaMn9So9Po2CnMn2McLo1eMcMn4Mc2Mn2McMn3Lo2NdaLo2cMnMcMn2Mc3MnMcMn3Mc2Cn8Po4Lo24Mc8",
  "Mn8Mc2Mn2Cn3Po5NdaCn3Lo3NdaLo1eLm6Po2Ll9Cn7Lu2bCn2Lu3Po8Cn8Mn3PoMndMcMn7Lo4MnLo6MnLo2McMn2Lo",
  "Cn5Ll2cLm3fLldLmLl22Lm25Mn40LuLlLuLlLuLlLuLlLuLlLuLlLuLlLuLlLuLlLuLlLuLlLuLlLuLlLuLlLuLlLuLl",
  "LuLlLuLlLuLlLuLlLuLlLuLlLuLlLuLlLuLlLuLlLuLlLuLlLuLlLuLlLuLlLuLlLuLlLuLlLuLlLuLlLuLlLuLlLuLl",
  "LuLlLuLlLuLlLuLlLuLlLuLlLuLlLuLlLuLlLuLlLuLlLuLlLuLlLuLlLuLlLuLlLuLlLuLlLuLlLuLlLuLlLuLlLuLl",
  "LuLlLuLlLuLlLuLlLuLlLuLlLuLlLuLlLuLlLuLlLuLlLuLlLuLl9LuLlLuLlLuLlLuLlLuLlLuLlLuLlLuLlLuLlLu",
  "LlLuLlLuLlLuLlLuLlLuLlLuLlLuLlLuLlLuLlLuLlLuLlLuLlLuLlLuLlLuLlLuLlLuLlLuLlLuLlLuLlLuLlLuLlLu",
  "LlLuLlLuLlLuLlLuLlLuLlLuLlLuLlLuLlLuLlLuLlLuLlLuLlLuLlLuLlLuLlLuLl9Lu8Ll6Cn2Lu6Cn2Ll8Lu8Ll8",
  "Lu8Ll6Cn2Lu6Cn2Ll8CnLuCnLuCnLuCnLuLl8Lu8LleCn2Ll8Lt8Ll8Lt8Ll8Lt8Ll5CnLl2Lu4LtSkLlSk3Ll3CnLl2",
  "Lu4LtSk3Ll4Cn2Ll2Lu4CnSk3Ll8Lu5Sk3Cn2Ll3CnLl2Lu4LtSk2CnZsbCf5Pd6Po2PiPfPsPi2PfPsPiPo8ZlZpCf5",
  "ZsPo9PiPfPo4Pc2Po3SmPsPePobSmPoPcPoaZsCf5CnCfaNoLmCn2No6Sm3PsPeLmNoaSm3PsPeCnLmdCn3Sc21Cnf",
  "MndMe4MnMe3MncCnfSo2LuSo4LuSo2LlLu3Ll2Lu3LlSoLuSo2SmLu5So6LuSoLuSoLuSoLu4SoLlLu4LlLo4LlSo2",
  "Ll2Lu2Sm5LuLl4SoSmSo2LlSoNo10Nl23LuLlNl4NoSo2Cn4Sm5So5Sm2So4SmSo2SmSo2SmSo7SmSo1fSm2So2SmSo",
  "SmSo1fSm10cSo8PsPePsPeSo14Sm2So7PsPeSo51SmSo1eSm19So28Sm6So45Cn19SobCn15No3cSo4eNo16Sob7Sm",
  "So9SmSo36Sm8So6fSmSof8PsPePsPePsPePsPePsPePsPePsPeNo1eSo2cSm5PsPeSm1fPsPePsPePsPePsPePsPe",
  "Sm10So100Sm83PsPePsPePsPePsPePsPePsPePsPePsPePsPePsPePsPeSm3fPsPePsPeSm20PsPeSm102So30Sm15",
  "So2Sm6So27Cn2So20CnSo69Lu30Ll30LuLlLu3Ll2LuLlLuLlLuLlLu4LlLuLl2LuLl6Lm2Lu3LlLuLlLuLlLuLlLuLl",
  "LuLlLuLlLuLlLuLlLuLlLuLlLuLlLuLlLuLlLuLlLuLlLuLlLuLlLuLlLuLlLuLlLuLlLuLlLuLlLuLlLuLlLuLlLuLl",
  "LuLlLuLlLuLlLuLlLuLlLuLlLuLlLuLlLuLlLuLlLuLlLuLlLuLlLuLlLuLlLuLlLuLlLuLlLuLlLuLlLuLlLuLl2So6",
  "LuLlLuLlMn3LuLlCn5Po4NoPo2Ll26CnLlCn5LlCn2Lo38Cn7LmPoCneMnLo17Cn9Lo7CnLo7CnLo7CnLo7CnLo7Cn",
  "Lo7CnLo7CnLo7CnMn20Po2PiPfPiPfPo3PiPfPoPiPfPo9PdPo2PdPoPiPfPo2PiPfPsPePsPePsPePsPePo5LmPoa",
  "Pd2Po4PdPoPsPodSo2Po3PsPePsPePsPePsPePdCn22So1aCnSo59CncSod6Cn1aSocCn4ZsPo3SoLmLoNlPsPePsPe",
  "PsPePsPePsPeSo2PsPePsPePsPePsPePdPsPe2SoNl9Mn4Mc2PdLm5So2Nl3LmLoPoSo2CnLo56Cn2Mn2Sk2Lm2LoPd",
  "Lo5aPoLm3LoCn5Lo2bCnLo5eCnSo2No4SoaLo20So24CncLo10So1fCnNoaSo1eNo8SoNofSo20NoaSo27NofSo140",
  "Lo19c0So40Lo5215LmLo477Cn3So37Cn9Lo28Lm6Po2Lo10cLmPo3Lo10NdaLo2Cn14LuLlLuLlLuLlLuLlLuLlLuLl",
  "LuLlLuLlLuLlLuLlLuLlLuLlLuLlLuLlLuLlLuLlLuLlLuLlLuLlLuLlLuLlLuLlLuLlLoMnMe3PoMnaPoLmLuLlLuLl",
  "LuLlLuLlLuLlLuLlLuLlLuLlLuLlLuLlLuLlLuLlLuLlLuLlLm2Mn2Lo46NlaMn2Po6Cn8Sk17Lm9Sk2LuLlLuLlLuLl",
  "LuLlLuLlLuLlLuLl3LuLlLuLlLuLlLuLlLuLlLuLlLuLlLuLlLuLlLuLlLuLlLuLlLuLlLuLlLuLlLuLlLuLlLuLlLu",
  "LlLuLlLuLlLuLlLuLlLuLlLuLlLuLlLuLlLuLlLuLlLuLlLuLlLmLl8LuLlLuLlLu2LlLuLlLuLlLuLlLuLlLmSk2Lu",
  "LlLuLlLoLuLlLuLl3LuLlLuLlLuLlLuLlLuLlLuLlLuLlLuLlLuLlLuLlLu5LlLu5LlLuLlLuLlLuLlLuLlLuLlLuLl",
  "LuLlLu4LlLuLlCn5LuLlCnLlCnLlLuLlLuLlCn18Lm3LuLlLoLm2LlLo7MnLo3MnLo4MnLo17Mc2Mn2McSo4MnCn3No6",
  "So2ScSoCn6Lo34Po4Cn8Mc2Lo32Mc10Mn2Cn8Po2NdaCn6Mn12Lo6Po3LoPoLo2MnNdaLo1cMn8Po2Lo17MnbMc2Cnb",
  "PoLo1dCn3Mn3McLo2fMnMc2Mn4Mc2Mn2Mc3PodCnLmNdaCn4Po2Lo5MnLmLo9NdaLo5CnLo29Mn6Mc2Mn2Mc2Mn2Cn9",
  "Lo3MnLo8MnMcCn2NdaCn2Po4Lo10LmLo6So3LoMcMnMcLo32MnLoMn3Lo2Mn2Lo5Mn2LoMnLoCn18Lo2LmPo2LobMc",
  "Mn2Mc2Po2LoLm2McMnCnaLo6Cn2Lo6Cn2Lo6Cn9Lo7CnLo7CnLl2bSkLm4Ll9LmSk2Cn4Ll50Lo23Mc2MnMc2MnMc2Po",
  "McMnCn2NdaCn6Lo2ba4CncLo17Cn4Lo31Cn4Cs800Co1900Lo16eCn2Lo6aCn26Ll7CncLl5Cn5LoMnLoaSmLodCnLo5",
  "CnLoCnLo2CnLo2CnLo6cSk11Cn10Lo16bPePsSo10Lo40Cn2Lo36Cn7SoCn20LocScSo3Mn10Po7PsPePoCn6Mn10Po",
  "Pd2Pc2PsPePsPePsPePsPePsPePsPePsPePsPePo2PsPePo4Pc3Po3CnPo4PdPsPePsPePsPePo3SmPdSm3CnPoScPo2",
  "Cn4Lo5CnLo87Cn2CfCnPo3ScPo3PsPePoSmPoPdPo2NdaPo2Sm3Po2Lu1aPsPoPeSkPcSkLl1aPsSmPeSmPsPePoPsPe",
  "Po2LoaLmLo2dLm2Lo1fCn3Lo6Cn2Lo6Cn2Lo6Cn2Lo3Cn3Sc2SmSkSoSc2CnSoSm4So2CnaCf3So2Cn2LocCnLo1aCn",
  "Lo13CnLo2CnLofCn2LoeCn22Lo7bCn5Po3Cn4No2dCn3So9Nl35No4So11No2So3CnSodCn3SoCn2fSo2dMnCn82Lo1d",
  "Cn3Lo31CnfMnNo1bCn4Lo20No4Cn9Lo14NlLo8NlCn5Lo26Mn5Cn5Lo1eCnPoLo24Cn4Lo8PoNl5Cn2aLu28Ll28Lo4e",
  "Cn2NdaCn6Lu24Cn4Ll24Cn4Lo28Cn8Lo34CnbPoLubCnLufCnLu7CnLu2CnLlbCnLlfCnLl7CnLl2Cn43Lo137Cn9",
  "Lo16CnaLo8Cn18Lm6CnLm2aCnLm9Cn45Lo6Cn2LoCnLo2cCnLo2Cn3LoCn2Lo17CnPoNo8Lo17So2No7Lo1fCn8No9",
  "Cn30Lo13CnLo2Cn5No5Lo16No6Cn3PoLo1aCn5PoCn40Lo38Cn4No2Lo2No10Cn2No2eLoMn3CnMn2Cn5Mn4Lo4CnLo3",
  "CnLo1dCn2Mn3Cn4MnNo9Cn7Po9Cn7Lo1dNo2PoLo1dNo3Cn20Lo8SoLo1cMn2Cn4No5Po7Cn9Lo36Cn3Po7Lo16Cn2",
  "No8Lo13Cn5No8Lo12Cn7Po4CncNo7Cn50Lo49Cn37Lu33CndLl33Cn7No6Lo24Mn4Cn8NdaCn126No1fCnLo2aCnMn2",
  "PdCn2Lo2Cn4bMn3Lo1dNoaLoCn8Lo16MnbNo4Po5Cn16Lo12Mn4Po4Cn26Lo15No7Cn14Lo17Cn9McMnMcLo35MnfPo7",
  "Cn4No14NdaMnLo2Mn2LoCn9Mn3McLo2dMc3Mn4Mc2Mn2Po2CfPo4MnCnaCfCn2Lo19Cn7NdaCn6Mn3Lo24Mn5McMn8Cn",
  "NdaPo4LoMc2LoCn8Lo23MnPo2LoCn9Mn2McLo30Mc3Mn9Mc2Lo4Po4Mn4PoMcMnNdaLoPoLoPo3CnNo14CnbLo12Cn",
  "Lo19Mc3Mn3Mc2MnMcMn2Po6MnLo2MnCn3eLo7CnLoCnLo4CnLofCnLoaPoCn6Lo2fMnMc3Mn8Cn5NdaCn6Mn2Mc2Cn",
  "Lo8Cn2Lo2Cn2Lo16CnLo7CnLo2CnLo5CnMn2LoMc2MnMc4Cn2Mc2Cn2Mc3Cn2LoCn6McCn5Lo5Mc2Cn2Mn7Cn3Mn5",
  "Cn8bLo35Mc3Mn8Mc2Mn3McMnLo4Po5NdaPo2CnPoMnLo3Cn1eLo30Mc3Mn6McMnMc4Mn2McMn2Lo2PoLoCn8NdaCna6",
  "Lo2fMc3Mn4Cn2Mc4Mn2McMn2Po17Lo4Mn2Cn22Lo30Mc3Mn8Mc2MnMcMn2Po3LoCnbNdaCn6PodCn13Lo2bMnMcMnMc2",
  "Mn6McMnLoPoCn6NdaCn36Lo1bCn2Mn3Mc2Mn4McMn5Cn4NdaNo2Po3SoLo7Cnb9Lo2cMc3Mn9McMn2PoCn64Lu20Ll20",
  "NdaNo9CncLo8Cn2LoCn2Lo8CnLo2CnLo18Mc6CnMc2Cn2Mn2McMnLoMcLoMcMnPo3Cn9NdaCn46Lo8Cn2Lo27Mc3Mn4",
  "Cn2Mn2Mc4MnLoPoLoMcCn1bLoMnaLo28Mn6McLoMn4Po8MnCn8LoMn6Mc2Mn3Lo2eMndMcMn2Po3LoPo5CndLo49Cn7",
  "PoaCnf6Lo9CnLo25McMn7CnMn6McMnLoPo5CnaNdaNo13Cn3Po2Lo1eCn2Mn16CnMcMn7McMn2McMn2Cn49Lo7CnLo2",
  "CnLo26Mn6Cn3MnCnMn2CnMn7LoMnCn8NdaCn6Lo6CnLo2CnLo20Mc5CnMn2CnMc2MnMcMnLoCn7NdaCn136Lo13Mn2",
  "Mc2Po2Cn7Mn2LoMcLodCnLo22Mc2Mn5Cn3Mc2MnMcMnPodNdaCn56LoCnfNo15So8Sc4So11CndPoLo39aCn66Nl6fCn",
  "Po5CnbLoc4Cna4cLo61Po2CndLo430Cf10MnLo6MnfCnfaaLo247Cn21b9Lo239Cn7Lo1fCnNdaCn4Po2Lo4fCnNda",
  "Cn6Lo1eCn2Mn5PoCnaLo30Mn7Po5So4Lm4PoSoCnaNdaCnNo7CnLo15Cn5Lo13Cn2b0Lu20Ll20No17Po4Cn65Lo4b",
  "Cn4MnLoMc37Cn7Mn4LmdCn40Lm2PoLmMnCnbMc2CneLo17f8Cn8Lo4d6Cn2aLo9Cn22e7Lm4CnLm7CnLm2CnLo123Cnf",
  "LoCn1dLo3Cn2LoCneLo4Cn8Lo18cCn904Lo6bCn5LodCn3Lo9Cn7LoaCn2SoMn2PoCf4Cn125cMn2eCn2Mn17Cn9So74",
  "Cn3cSof6CnaSo27Cn2So3cMc2Mn3So3Mc6Cf8Mn8So2Mn7So1eMn4So3dCn15So42Mn3SoCn7aNo14CncNo14CncSo57",
  "Cn9No19Cn87Lu1aLl1aLu1aLl7CnLl12Lu1aLl1aLuCnLu2Cn2LuCn2Lu2Cn2Lu4CnLu8Ll4CnLlCnLl7CnLlbLu1a",
  "Ll1aLu2CnLu4Cn2Lu8CnLu7CnLl1aLu2CnLu4CnLu5CnLuCn3Lu7CnLl1aLu1aLl1aLu1aLl1aLu1aLl1aLu1aLl1a",
  "Lu1aLl1aLu1aLl1cCn2Lu19SmLl19SmLl6Lu19SmLl19SmLl6Lu19SmLl19SmLl6Lu19SmLl19SmLl6Lu19SmLl19Sm",
  "Ll6LuLlCn2Nd32So200Mn37So4Mn32So8MnSoeMnSo2Po5CnfMn5CnMnfCn450LlaLoLl14Cn6Ll6Cnd5Mn7CnMn11",
  "Cn2Mn7CnMn2CnMn5Cn5Lm3eCn21MnCn70Lo2dCn3Mn7Lm7Cn2NdaCn4LoSoCn140Lo1eMnCn11Lo2cMn4NdaCn5Sc",
  "Cn1d0Lo1bLmMn4NdaCn2e6Lo7CnLo4CnLo2CnLofCnLoc5Cn2No9Mn7Cn29Lu22Ll22Mn7LmCn4NdaCn4Po2Cn311",
  "No3bSoNo3ScNo4Cn4cNo2dSoNofCnc2Lo4CnLo1bCnLo2CnLoCn2LoCnLoaCnLo4CnLoCnLoCn6LoCn4LoCnLoCnLoCn",
  "Lo3CnLo2CnLoCn2LoCnLoCnLoCnLoCnLoCnLo2CnLoCn2Lo4CnLo7CnLo4CnLo4CnLoCnLoaCnLo11Cn5Lo3CnLo5Cn",
  "Lo11Cn34Sm2Cn10eSo2cCn4So64CncSofCn2SofCnSofCnSo25CnaNodSoa1Cn38So1dCndSo2cCn4So9Cn7So2Cne",
  "So6Cn9aSofbSk5So2d8Cn4So11Cn3SodCn3So77Cn4So5fCn6SocCn4SoCnfSocCn4So38Cn8SoaCn6So28Cn8So1e",
  "Cn2So2Cn4eSo154CncSoeCn2SodCn3So9Cn7So2eCnSo7Cn8SoeCn4So9Cn7So9Cn7So93CnSo37Cn25NdaCn406",
  "Loa6e0Cn20Lo103aCn6LodeCn2Lo1682CneLo1d31Cnc1fLo21eCn5e2Lo134bCn5Lo1060Cnadc51CfCn1eCf60Cn80",
  "Mnf0Cnfe10CofffeCn2CofffeCn2"]

/-- The value of a hexadecimal digit in lower case, and 0 for any other character. -/
def digitValue (digit : Char) : Nat :=
  if '0' ≤ digit ∧ digit ≤ '9' then digit.toNat - 48
  else if 'a' ≤ digit ∧ digit ≤ 'f' then digit.toNat - 87
  else 0

/-- Reads one letter of the encoded runs: a capital opens a category name, the letter after it
completes the name, and any other letter is a digit of the length of the latest run. -/
def readLetter : Option Char × List (Category × Nat) → Char → Option Char × List (Category × Nat)
  | (none, runs), letter =>
    if letter.isUpper then (some letter, runs)
    else
      match runs with
      | [] => (none, [])
      | (category, length) :: older =>
        (none, (category, length * 16 + digitValue letter) :: older)
  | (some capital, runs), letter =>
    (none, ((ofLetters? capital letter).getD .unassigned, 0) :: runs)

/-- The runs of equal category with their lengths, where 0 stands for a run of one. -/
def runs : List (Category × Nat) :=
  ((encodedRuns.flatMap String.toList).foldl readLetter (none, [])).2.reverse

/-- The first code point of each run with its category, in increasing order. -/
def startsFrom : (next : Nat) → List (Category × Nat) → Array (Nat × Category) →
    Array (Nat × Category)
  | _, [], starts => starts
  | next, (category, length) :: rest, starts =>
    startsFrom (next + max 1 length) rest (starts.push (next, category))

/-- The first code point of each run with its category. -/
def starts : Array (Nat × Category) :=
  startsFrom 0 runs #[]

/-- Bisects the run starts for the last one at or before a code point. -/
def search (codePoint : Nat) : (fuel low high : Nat) → Nat
  | 0, low, _ => low
  | fuel + 1, low, high =>
    if low + 1 < high then
      let middle := (low + high) / 2
      match starts[middle]? with
      | some (start, _) =>
        if start ≤ codePoint then search codePoint fuel middle high
        else search codePoint fuel low middle
      | none => search codePoint fuel low middle
    else low

/-- The general category of a code point. -/
def ofCodePoint (codePoint : Nat) : Category :=
  match starts[search codePoint 32 0 starts.size]? with
  | some (_, category) => category
  | none => .unassigned

end Category

/-- Whether a character is shown as itself in quoted text: letters, marks, numbers,
punctuation, symbols and the space. -/
def isPrintable (character : Char) : Bool :=
  if character.toNat < 0x7F then 0x20 ≤ character.toNat
  else ['L', 'M', 'N', 'P', 'S'].any fun letter =>
    ((Category.group? letter).getD []).contains (Category.ofCodePoint character.toNat)

end Aml
